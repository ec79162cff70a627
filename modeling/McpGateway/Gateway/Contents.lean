import McpGateway.Foundation.Simulate
import McpGateway.Gateway.Observation

/-! # What an answer owes to the contents

A tool reads `encrypted_content` only to fetch the text of a chunk it has found. So two gateways with
different content keys, over tables that differ in their contents only, give the same answers but for
those texts: related texts make related answers (`answers_related`). -/

namespace McpGateway.Gateway

open Foundation

/-! ## Contents and the rest -/

def withoutContent (row : DocumentChunk) : DocumentChunk := { row with encryptedContent := none }

theorem ids_withoutContent (rows : List DocumentChunk) :
    (rows.map withoutContent).map DocumentChunk.id = rows.map DocumentChunk.id := by
  rw [List.map_map]
  rfl

theorem fits_withoutContent {rows : List DocumentChunk} (h : ∀ row ∈ rows, ChunkFits row) :
    ∀ row ∈ rows.map withoutContent, ChunkFits row := by
  intro row hrow
  obtain ⟨row', hrow', rfl⟩ := List.mem_map.mp hrow
  exact h row' hrow'

/-- The database with no content. -/
def Database.withoutContents (db : Database) : Database :=
  { db with
    chunks := db.chunks.map withoutContent
    chunks_pk := (ids_withoutContent db.chunks).symm ▸ db.chunks_pk
    chunks_fit := fits_withoutContent db.chunks_fit }

/-- The text a fetch gets from the row. -/
def textOf (p : Platform) (row : DocumentChunk) : JString :=
  match chunkText p row with
  | .ok text => text
  | .error _ => []

def Platform.withKey (p : Platform) (contentKey : Bytes) : Platform :=
  { p with contentKey := contentKey }

theorem hasBaseCharacter_withKey (p : Platform) (k : Bytes) (before after : JString) :
    hasBaseCharacter (p.withKey k) before after = hasBaseCharacter p before after := by
  induction before generalizing after with
  | nil => rfl
  | cons u before ih =>
      unfold hasBaseCharacter
      rw [ih]
      rfl

theorem wordBoundary_withKey (p : Platform) (k : Bytes) :
    wordBoundary (p.withKey k) = wordBoundary p := by
  unfold wordBoundary
  simp only [hasBaseCharacter_withKey]
  rfl

/-- The guard has no use for the key. -/
theorem guardQuery_withKey (p : Platform) (k : Bytes) (env : Env) (auth : Authentication)
    (q : JString) : guardQuery (p.withKey k) env auth q = guardQuery p env auth q := by
  unfold guardQuery validate rejectTiers instructionOverride longBase64
  rw [wordBoundary_withKey]

/-! ## Statements -/

section Statements

variable {e : Bool} {db : Database} {σ : Settings} {p : Platform}

theorem filterRows_map (grants : List Grant) (rows : List DocumentChunk) :
    (filterRows (rowVisible grants σ) rows).map (List.map withoutContent)
      = filterRows (rowVisible grants σ) (rows.map withoutContent) := by
  have htest : ∀ row, rowVisible grants σ (withoutContent row) = rowVisible grants σ row :=
    fun _ => rfl
  induction rows with
  | nil => rfl
  | cons row rows ih =>
      rw [List.map_cons]
      unfold filterRows
      rw [htest, ← ih]
      cases rowVisible grants σ row with
      | none => rfl
      | some keep =>
          cases filterRows (rowVisible grants σ) rows with
          | none => rfl
          | some rest => cases keep <;> rfl

theorem visibleRows_map : (visibleRows e db σ).map (List.map withoutContent)
    = visibleRows e db.withoutContents σ := by
  unfold visibleRows
  split_ifs
  · exact filterRows_map db.grants db.chunks
  · rfl

theorem limitRows_map (limit : Int) (rows : List DocumentChunk) :
    (limitRows limit rows).map (List.map withoutContent)
      = limitRows limit (rows.map withoutContent) := by
  unfold limitRows
  split_ifs
  · rfl
  · simp only [Option.map_some, List.map_take]

theorem selectByText_map (q : JString) (allowed : List Classification) (limit : Int) :
    (selectByText p q allowed limit db σ).map (List.map withoutContent)
      = selectByText p q allowed limit db.withoutContents σ := by
  unfold selectByText
  rw [← visibleRows_map]
  cases bindText q with
  | none => rfl
  | some q =>
      cases visibleRows p.rlsEnforced db σ with
      | none => rfl
      | some rows =>
          show (limitRows limit _).map (List.map withoutContent) = limitRows limit _
          rw [limitRows_map, List.filter_map]
          rfl

theorem selectByVector_map (v : Vector32) (allowed : List Classification) (limit : Int) :
    (selectByVector p v allowed limit db σ).map (List.map withoutContent)
      = selectByVector p v allowed limit db.withoutContents σ := by
  unfold selectByVector
  rw [← visibleRows_map]
  split_ifs
  · cases visibleRows p.rlsEnforced db σ with
    | none => rfl
    | some rows =>
        have hfilter : (rows.map withoutContent).filter
              (fun row => decide (row.classification ∈ allowed ∧ row.embedding.isSome = true))
            = (rows.filter fun row =>
              decide (row.classification ∈ allowed ∧ row.embedding.isSome = true)).map withoutContent := by
          rw [List.filter_map]
          rfl
        simp only [Option.map_some, Option.bind_eq_bind, Option.bind_some, hfilter]
        generalize rows.filter (fun row =>
          decide (row.classification ∈ allowed ∧ row.embedding.isSome = true)) = candidates
        have hlengths : (candidates.map withoutContent).all
              (fun row => decide ((row.embedding.getD []).length = v.length))
            = candidates.all fun row => decide ((row.embedding.getD []).length = v.length) := by
          rw [List.all_map]
          rfl
        rw [hlengths]
        split_ifs
        · rw [limitRows_map, List.map_mergeSort]
          intro _ _ _ _
          rfl
        · rfl
  · rfl

theorem selectRows_withoutContents (table : Table) (cols : List Column)
    (conds : List (Column × Option JString)) (maxRows : Nat) :
    selectRows p table cols conds maxRows db.withoutContents σ
      = selectRows p table cols conds maxRows db σ := by
  have hrows : tableRows p table db.withoutContents σ = tableRows p table db σ := by
    cases table with
    | employees => rfl
    | documentChunks =>
        show (visibleRows p.rlsEnforced db.withoutContents σ).map (·.map chunkRow)
          = (visibleRows p.rlsEnforced db σ).map (·.map chunkRow)
        rw [← visibleRows_map, Option.map_map]
        congr 1
        funext rows
        exact List.map_map ..
  unfold selectRows
  rw [hrows]

end Statements

/-! ## Two gateways -/

/-- Tables that differ in their contents only, and make related texts under the two platforms. -/
structure SameButContents (T : JString → JString → Prop) (p p' : Platform) (d d' : Database) :
    Prop where
  rest : d.withoutContents = d'.withoutContents
  texts : ∀ row ∈ d.chunks, ∀ row' ∈ d'.chunks, row.id = row'.id →
    T (textOf p row) (textOf p' row')

/-- Fragments that differ in their texts only. -/
def SameButText (T : JString → JString → Prop) (f f' : DataFragment) : Prop :=
  ∃ t t', T t t' ∧ f.fragmentText = framed t ∧ f' = { f with fragmentText := framed t' }

/-- The same result, but for the texts of its fragments. -/
inductive Resembles (T : JString → JString → Prop) : ToolResult → ToolResult → Prop
  | same (r : ToolResult) : Resembles T r r
  | fragments {fs fs' : List DataFragment} (h : List.Forall₂ (SameButText T) fs fs') :
      Resembles T (.fragments fs) (.fragments fs')

/-- Equal texts make equal results. -/
theorem Resembles.eq {r r' : ToolResult} (h : Resembles (fun t t' => t = t') r r') : r' = r := by
  cases h with
  | same => rfl
  | @fragments fs fs' h =>
      congr 1
      induction h with
      | nil => rfl
      | cons hf _ ih =>
          obtain ⟨t, t', rfl, hframed, rfl⟩ := hf
          rw [← hframed, ih]

section TwoGateways

variable {T : JString → JString → Prop} {p : Platform} {k : Bytes} {σ : Settings} {env : Env}
  {d d' : Database}

theorem withoutContents_applyWrite (db : Database) (w : Write) :
    (applyWrite db w).withoutContents = applyWrite db.withoutContents w := by
  cases w <;> rfl

theorem chunks_applyWrite (db : Database) (w : Write) : (applyWrite db w).chunks = db.chunks := by
  cases w <;> rfl

theorem SameButContents.applyWrite {p' : Platform} (h : SameButContents T p p' d d') (w : Write) :
    SameButContents T p p' (applyWrite d w) (applyWrite d' w) := by
  constructor
  · rw [withoutContents_applyWrite, withoutContents_applyWrite, h.rest]
  · rw [chunks_applyWrite, chunks_applyWrite]
    exact h.texts

/-- Rows that differ in their contents only. -/
def SameRows (rows rows' : List DocumentChunk) : Prop :=
  rows.map withoutContent = rows'.map withoutContent

theorem rel_of_map {rows rows' : Option (List DocumentChunk)}
    (h : rows.map (List.map withoutContent) = rows'.map (List.map withoutContent)) :
    Option.Rel SameRows rows rows' := by
  cases rows with
  | none =>
      cases rows' with
      | none => exact .none
      | some rows' => cases h
  | some rows =>
      cases rows' with
      | none => cases h
      | some rows' => exact .some (Option.some.inj h)

/-- The rule for statements that answer alike. -/
theorem sim_statement {α α' : Type} {D : Database → Database → Prop} {fails : Bool}
    {run : Database → Settings → Option α} {run' : Database → Settings → Option α'}
    {V : α → α' → Prop} (h : ∀ d d', D d d' → Option.Rel V (run d σ) (run' d' σ)) :
    Act.Sim (Session.Alike D σ) (statement fails run) (statement fails run') V
      (fun e e' => e = e') := by
  intro s s' hs
  obtain ⟨t, ht, ht', rfl⟩ := hs.tx
  have hanswer : statementAnswer fails run s
        = if t.aborted || fails then none else run s.store t.settings := by
    simp [statementAnswer, Session.isAborted, Session.settings, ht]
  have hanswer' : statementAnswer fails run' s'
        = if t.aborted || fails then none else run' s'.store t.settings := by
    simp [statementAnswer, Session.isAborted, Session.settings, ht']
  have hrel : Option.Rel V (statementAnswer fails run s) (statementAnswer fails run' s') := by
    rw [hanswer, hanswer']
    split_ifs
    · exact .none
    · exact h _ _ hs.store
  cases hans : statementAnswer fails run s with
  | none =>
      rw [hans] at hrel
      cases hans' : statementAnswer fails run' s' with
      | some a' =>
          rw [hans'] at hrel
          cases hrel
      | none =>
          rw [statement_none hans, statement_none hans']
          refine ⟨.error rfl, hs.store, hs.issued, { t with aborted := true }, ?_, ?_, rfl⟩
          · simp [Session.onTx, ht]
          · simp [Session.onTx, ht']
  | some a =>
      rw [hans] at hrel
      cases hans' : statementAnswer fails run' s' with
      | none =>
          rw [hans'] at hrel
          cases hrel
      | some a' =>
          rw [hans'] at hrel
          rw [statement_some hans, statement_some hans']
          cases hrel with
          | some ha => exact ⟨.ok ha, hs⟩

/-- A fetch, with what it catches put away. -/
theorem fetchChunk_eq (p : Platform) (env : Env) (chunkId : Uuid) : fetchChunk p env chunkId =
    tryCatch
      (do
        let found ← statement (env.fetchFails chunkId) fun db s =>
          (visibleRows p.rlsEnforced db s).map (·.find? fun row => row.id = chunkId)
        pure ((found.map (textOf p)).getD []))
      fun _ => pure [] := by
  funext s
  unfold fetchChunk
  rw [Act.tryCatch_apply, Act.tryCatch_apply, Act.bind_apply, Act.bind_apply]
  cases statement (env.fetchFails chunkId) (fun db s =>
      (visibleRows p.rlsEnforced db s).map (·.find? fun row => row.id = chunkId)) s with
  | mk out t =>
      cases out with
      | error e => rfl
      | ok found =>
          cases found with
          | none => rfl
          | some row =>
              simp only [Option.map_some, Option.getD_some, textOf]
              cases chunkText p row <;> rfl

theorem find?_withoutContent (rows : List DocumentChunk) (chunkId : Uuid) :
    (rows.map withoutContent).find? (fun row => decide (row.id = chunkId))
      = (rows.find? fun row => decide (row.id = chunkId)).map withoutContent := by
  rw [List.find?_map]
  rfl

/-- Both gateways find the row of an id, or neither. -/
theorem found_related (h : SameButContents T p (p.withKey k) d d') (hnil : T [] [])
    (chunkId : Uuid) :
    Option.Rel (fun found found' : Option DocumentChunk =>
        T ((found.map (textOf p)).getD []) ((found'.map (textOf (p.withKey k))).getD []))
      ((visibleRows p.rlsEnforced d σ).map (·.find? fun row => row.id = chunkId))
      ((visibleRows p.rlsEnforced d' σ).map (·.find? fun row => row.id = chunkId)) := by
  have hvisible : (visibleRows p.rlsEnforced d σ).map (List.map withoutContent)
      = (visibleRows p.rlsEnforced d' σ).map (List.map withoutContent) := by
    rw [visibleRows_map, visibleRows_map, h.rest]
  cases hrows : visibleRows p.rlsEnforced d σ with
  | none =>
      cases hrows' : visibleRows p.rlsEnforced d' σ with
      | none => exact .none
      | some rows' =>
          rw [hrows, hrows'] at hvisible
          cases hvisible
  | some rows =>
      cases hrows' : visibleRows p.rlsEnforced d' σ with
      | none =>
          rw [hrows, hrows'] at hvisible
          cases hvisible
      | some rows' =>
          rw [hrows, hrows'] at hvisible
          refine .some ?_
          show T (((rows.find? fun row => decide (row.id = chunkId)).map (textOf p)).getD [])
            (((rows'.find? fun row => decide (row.id = chunkId)).map
              (textOf (p.withKey k))).getD [])
          have hfound : (rows.find? fun row => decide (row.id = chunkId)).map withoutContent
              = (rows'.find? fun row => decide (row.id = chunkId)).map withoutContent := by
            rw [← find?_withoutContent, ← find?_withoutContent, Option.some.inj hvisible]
          -- ids are the same in both tables
          cases hrow : rows.find? fun row => decide (row.id = chunkId) with
          | none =>
              rw [hrow] at hfound
              rw [Option.map_eq_none_iff.mp hfound.symm]
              exact hnil
          | some row =>
              rw [hrow] at hfound
              obtain ⟨row', hrow', hsame⟩ := Option.map_eq_some_iff.mp hfound.symm
              rw [hrow']
              have hid : row.id = row'.id := (congrArg DocumentChunk.id hsame).symm
              exact h.texts row (visibleRows_subset hrows (List.mem_of_find?_eq_some hrow)) row'
                (visibleRows_subset hrows' (List.mem_of_find?_eq_some hrow')) hid

theorem sim_fetchChunk (hnil : T [] []) (chunkId : Uuid) :
    Act.Sim (Session.Alike (SameButContents T p (p.withKey k)) σ) (fetchChunk p env chunkId)
      (fetchChunk (p.withKey k) env chunkId) T (fun e e' => e = e') := by
  rw [fetchChunk_eq, fetchChunk_eq]
  apply Act.Sim.tryCatch
  · apply Act.Sim.bind
    · exact sim_statement fun d d' hd => found_related hd hnil chunkId
    · intro found found' hfound
      exact Act.Sim.pure hfound
  · intro _ _ _
    exact Act.Sim.pure hnil

theorem fragmentOf_related {row row' : DocumentChunk} (h : withoutContent row = withoutContent row')
    {t t' : JString} (ht : T t t') : SameButText T (fragmentOf row t) (fragmentOf row' t') := by
  refine ⟨t, t', ht, rfl, ?_⟩
  have hid : row.id = row'.id := (congrArg DocumentChunk.id h :)
  have hname : row.docName = row'.docName := (congrArg DocumentChunk.docName h :)
  have hclass : row.classification = row'.classification := (congrArg DocumentChunk.classification h :)
  have hindex : row.chunkIndex = row'.chunkIndex := (congrArg DocumentChunk.chunkIndex h :)
  unfold fragmentOf
  rw [hid, hname, hclass, hindex]

theorem sim_fetchFragments (hnil : T [] []) {rows rows' : List DocumentChunk}
    (h : SameRows rows rows') :
    Act.Sim (Session.Alike (SameButContents T p (p.withKey k)) σ) (fetchFragments p env rows)
      (fetchFragments (p.withKey k) env rows') (List.Forall₂ (SameButText T))
      (fun e e' => e = e') := by
  induction rows generalizing rows' with
  | nil =>
      cases rows' with
      | nil => exact Act.Sim.pure .nil
      | cons row' rows' => cases h
  | cons row rows ih =>
      cases rows' with
      | nil => cases h
      | cons row' rows' =>
          obtain ⟨hrow, hrows⟩ := List.cons.inj h
          unfold fetchFragments
          rw [← show row.id = row'.id from (congrArg DocumentChunk.id hrow :)]
          apply Act.Sim.bind (sim_fetchChunk hnil row.id)
          intro t t' ht
          apply Act.Sim.bind (ih hrows)
          intro fs fs' hfs
          exact Act.Sim.pure (.cons (fragmentOf_related hrow ht) hfs)

/-! ## The tools -/

/-- A computation that reads no content. -/
theorem sim_of_rel {α : Type} {m : GatewayM α} {D : Database → Database → Prop} {Q : α → Prop}
    (h : Act.Rel (Session.Alike D σ) m Q) :
    Act.Sim (Session.Alike D σ) m m (fun a a' => a = a') (fun e e' => e = e') := by
  intro s s' hs
  obtain ⟨hout, hrel⟩ := h.sim s s' hs
  exact ⟨hout.mono fun _ _ ha => ha.1, hrel⟩

theorem sim_spendBudget (apiKeyId : Uuid) (count : Nat) :
    Act.Sim (Session.Alike (SameButContents T p (p.withKey k)) σ) (spendBudget p env apiKeyId count)
      (spendBudget (p.withKey k) env apiKeyId count) (fun a a' => a = a') (fun e e' => e = e') := by
  refine sim_of_rel (rel_spendBudget_of (p := p) (fun _ _ w h => h.applyWrite w) ?_ count)
  intro d d' window count h
  have hrate : d.rateLimit = d'.rateLimit := (congrArg Database.rateLimit h.rest :)
  unfold upsertTotal
  rw [hrate]

theorem sim_guardQuery {auth : Authentication} (q : JString) :
    Act.Sim (Session.Alike (SameButContents T p (p.withKey k)) σ) (guardQuery p env auth q)
      (guardQuery (p.withKey k) env auth q) (fun a a' => a = a') (fun e e' => e = e') := by
  rw [guardQuery_withKey]
  exact sim_of_rel (rel_guardQuery q)

theorem sim_answerWith (hnil : T [] []) (toolName : String) (apiKey : ApiKey) (q : JString)
    (limit : Int) (flagged : Bool) {rows rows' : List DocumentChunk} (h : SameRows rows rows') :
    Act.Sim (Session.Alike (SameButContents T p (p.withKey k)) σ)
      (answerWith p env toolName apiKey q limit flagged rows)
      (answerWith (p.withKey k) env toolName apiKey q limit flagged rows') (Resembles T)
      (fun e e' => e = e') := by
  unfold answerWith
  apply Act.Sim.bind (sim_fetchFragments hnil h)
  intro fs fs' hfs
  rw [← hfs.length_eq]
  apply Act.Sim.bind (sim_spendBudget _ _)
  rintro exceeded _ rfl
  cases exceeded with
  | some retryAfterSeconds => exact Act.Sim.pure (.same _)
  | none =>
      apply Act.Sim.bind (sim_of_rel (rel_log _))
      intro _ _ _
      exact Act.Sim.pure (.fragments hfs)

theorem sim_searchTool (hnil : T [] []) {auth : Authentication} {toolName : String}
    {retrieve retrieve' : Retrieval}
    (hretrieve : ∀ role q limit, Act.Sim (Session.Alike (SameButContents T p (p.withKey k)) σ)
      (retrieve role q limit) (retrieve' role q limit) SameRows (fun e e' => e = e'))
    (q : Option JString) (maxResults : Option Int) :
    Act.Sim (Session.Alike (SameButContents T p (p.withKey k)) σ)
      (searchTool p env auth toolName retrieve q maxResults)
      (searchTool (p.withKey k) env auth toolName retrieve' q maxResults) (Resembles T)
      (fun e e' => e = e') := by
  unfold searchTool
  cases acceptedQuery q with
  | none => exact Act.Sim.throw rfl
  | some q =>
      dsimp only
      apply Act.Sim.bind (sim_guardQuery q)
      rintro guardResult _ rfl
      cases guardResult with
      | error reason => exact Act.Sim.pure (.same _)
      | ok result =>
          unfold searchAccepted
          apply Act.Sim.bind (V := fun key key' => key = key')
          · cases auth with
            | apiKey key => exact Act.Sim.pure rfl
            | absent => exact Act.Sim.throw rfl
            | otherPrincipal => exact Act.Sim.throw rfl
          · rintro key _ rfl
            apply Act.Sim.bind (hretrieve _ _ _)
            intro rows rows' hrows
            exact sim_answerWith hnil toolName key q _ _ hrows

theorem sim_retrieveByText (role : AccessRole) (q : JString) (limit : Int) :
    Act.Sim (Session.Alike (SameButContents T p (p.withKey k)) σ) (retrieveByText p env role q limit)
      (retrieveByText (p.withKey k) env role q limit) SameRows (fun e e' => e = e') := by
  apply sim_statement
  intro d d' hd
  apply rel_of_map
  show _ = (selectByText p q (allowedClassifications role) limit d' σ).map _
  rw [selectByText_map, selectByText_map, hd.rest]

theorem sim_retrieveByVector (role : AccessRole) (q : JString) (limit : Int) :
    Act.Sim (Session.Alike (SameButContents T p (p.withKey k)) σ)
      (retrieveByVector p env role q limit) (retrieveByVector (p.withKey k) env role q limit)
      SameRows (fun e e' => e = e') := by
  unfold retrieveByVector
  apply Act.Sim.bind (V := fun v v' => v = v')
  · show Act.Sim _ (embed p env q) (embed p env q) _ _
    unfold embed
    split_ifs
    · exact Act.Sim.throw rfl
    · cases p.embed q with
      | some v => exact Act.Sim.pure rfl
      | none => exact Act.Sim.throw rfl
  · rintro v _ rfl
    apply sim_statement
    intro d d' hd
    apply rel_of_map
    show _ = (selectByVector p v (allowedClassifications role) limit d' σ).map _
    rw [selectByVector_map, selectByVector_map, hd.rest]

theorem sim_queryDatabase (auth : Authentication) (table : Option JString)
    (filters : Option Filters) (maxRows : Option Int) :
    Act.Sim (Session.Alike (SameButContents T p (p.withKey k)) (rlsSettings auth))
      (queryDatabase p env auth table filters maxRows)
      (queryDatabase (p.withKey k) env auth table filters maxRows) (fun a a' => a = a')
      (fun e e' => e = e') := by
  cases auth with
  | apiKey key =>
      refine sim_of_rel (rel_queryDatabase (p := p) (rel_query ?_))
      intro _ t conds _ _ _ d d' h
      rw [← selectRows_withoutContents, h.rest, selectRows_withoutContents]
  | absent =>
      unfold queryDatabase currentApiKey
      apply Act.Sim.bind (V := fun _ _ => False) (Act.Sim.throw rfl)
      exact fun _ _ h => h.elim
  | otherPrincipal =>
      unfold queryDatabase currentApiKey
      apply Act.Sim.bind (V := fun _ _ => False) (Act.Sim.throw rfl)
      exact fun _ _ h => h.elim

theorem sim_listSources {D : Database → Database → Prop} (auth : Authentication) :
    Act.Sim (Session.Alike D (rlsSettings auth)) (listSources env auth) (listSources env auth)
      (fun a a' => a = a') (fun e e' => e = e') := by
  cases auth with
  | apiKey key => exact sim_of_rel rel_listSources
  | absent =>
      unfold listSources currentApiKey
      apply Act.Sim.bind (V := fun _ _ => False) (Act.Sim.throw rfl)
      exact fun _ _ h => h.elim
  | otherPrincipal =>
      unfold listSources currentApiKey
      apply Act.Sim.bind (V := fun _ _ => False) (Act.Sim.throw rfl)
      exact fun _ _ h => h.elim

theorem sim_toolBody (hnil : T [] []) (auth : Authentication) (call : ToolCall) :
    Act.Sim (Session.Alike (SameButContents T p (p.withKey k)) (rlsSettings auth))
      (toolBody p env auth call) (toolBody (p.withKey k) env auth call) (Resembles T)
      (fun e e' => e = e') := by
  cases call with
  | listSources => exact (sim_listSources auth).mono fun _ _ h => h ▸ .same _
  | queryDatabase table filters maxRows =>
      exact (sim_queryDatabase auth table filters maxRows).mono fun _ _ h => h ▸ .same _
  | searchDocuments q maxResults =>
      exact sim_searchTool hnil (fun _ _ _ => sim_retrieveByText _ _ _) q maxResults
  | semanticSearchDocuments q maxResults =>
      exact sim_searchTool hnil (fun _ _ _ => sim_retrieveByVector _ _ _) q maxResults

/-! ## Whole invocations -/

/-- The same transaction, ended with related outcomes. -/
theorem finish_related {α α' : Type} {D : Database → Database → Prop} {V : α → α' → Prop}
    (happly : ∀ d d' w, D d d' → D (applyWrite d w) (applyWrite d' w)) (fate : TxFate Settings)
    {out : Except Throwable α} {out' : Except Throwable α'} {s s' : GatewaySession}
    (hout : Act.Outcomes V (fun e e' => e = e') out out') (h : Session.Alike D σ s s') :
    Act.Outcomes V (fun e e' => e = e') (Session.finish rules fate out s).1
        (Session.finish rules fate out' s').1 ∧
      D (Session.finish rules fate out s).2.store (Session.finish rules fate out' s').2.store := by
  obtain ⟨t, ht, ht', -⟩ := h.tx
  have hrules : ∀ d d' w, D d d' → D (rules.apply d w) (rules.apply d' w) := happly
  unfold Session.finish
  cases hout with
  | error he => exact ⟨.error he, h.store⟩
  | ok ha =>
      rw [ht, ht']
      dsimp only
      split_ifs
      · exact ⟨.ok ha, h.store⟩
      · exact ⟨.error rfl, h.store⟩
      · exact ⟨.error rfl, h.store⟩
      · exact ⟨.ok ha, Session.foldl_alike hrules t.work h.store⟩

/-- **Another key, other contents**: the answers of two gateways differ at most in the texts of
their fragments, and they leave the same behind. -/
theorem answers_related (hnil : T [] []) {g g' : GatewayState}
    (h : SameButContents T p (p.withKey k) g.db g'.db) (inv : Invocation) :
    Act.Outcomes (Resembles T) (fun e e' => e = e') (answer p inv g) (answer (p.withKey k) inv g') ∧
      SameButContents T p (p.withKey k) (after p inv g).db (after (p.withKey k) inv g').db := by
  unfold answer after
  cases hallow : allowlistRejects inv.auth inv.call.toolName with
  | some key =>
      -- the tool is not reached, so the key makes no difference
      have hkey : invoke (p.withKey k) inv g' = invoke p inv g' := by
        unfold invoke callTool enforceAllowlist
        rw [hallow]
      obtain ⟨e, he⟩ := invoke_rejected (p := p) hallow
      rw [hkey, he, he]
      dsimp only
      split_ifs
      · exact ⟨.error rfl, h⟩
      · exact ⟨.error rfl, h.applyWrite (.audit (deniedEntry key inv.call.toolName))⟩
  | none =>
      cases hstart : startError inv.env with
      | some e =>
          rw [invoke_unreached hallow hstart, invoke_unreached hallow hstart]
          dsimp only
          split_ifs
          · exact ⟨.error rfl, h⟩
          · exact ⟨.error rfl, h⟩
      | none =>
          obtain ⟨out, s, hrun, -, -, hinv⟩ := invoke_reached p inv hallow hstart g
          obtain ⟨out', s', hrun', -, -, hinv'⟩ := invoke_reached (p.withKey k) inv hallow hstart g'
          have halike : Session.Alike (SameButContents T p (p.withKey k)) (rlsSettings inv.auth)
              (inContext inv.auth g.session) (inContext inv.auth g'.session) :=
            ⟨h, rfl, _, rfl, rfl, rfl⟩
          obtain ⟨hout, hrel⟩ := sim_toolBody hnil inv.auth inv.call _ _ halike
          rw [hrun, hrun'] at hout hrel
          rw [hinv, hinv']
          exact finish_related (fun _ _ w hd => hd.applyWrite w) inv.env.outer.fate hout hrel

end TwoGateways

end McpGateway.Gateway
