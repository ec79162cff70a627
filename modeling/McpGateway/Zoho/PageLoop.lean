import McpGateway.Foundation.Orbit
import McpGateway.Zoho.CursorJson

/-! # The page loop of `list_changes`

The loop goes on while the server says so, and the offset moves by what the page held. Against a
server that answers by folder, offset and date, it is a run through the offsets.

* `page_loop_ends_iff` — it ends exactly when the offsets never come back to one they had; below
  2^32 entries, exactly when no page on the way is empty and says there are more. -/

namespace McpGateway.Zoho

open Foundation Ingestion Relation

/-- A page as the loop reads it: its entries, and `more_records`. -/
abbrev Page := List ZohoFileItem × Bool

/-- The server answers by folder, offset and date: with a run of at most 100 of the entries from the
offset on, and whatever flag. -/
structure Answers (server : Server) (entries : String → Int → List ZohoFileItem)
    (pageAt : String → UInt32 → Int → Page) : Prop where
  reply : ∀ request folderId offset fromMs,
    listFolderPage (server request folderId offset fromMs) = .ok (pageAt folderId offset fromMs)
  run : ∀ folderId offset fromMs, ∃ count ≤ 100,
    (pageAt folderId offset fromMs).1 = ((entries folderId fromMs).drop offset.toNat).take count

/-- The offset of the request that follows, if one does. -/
def nextOffset (page : UInt32 → Page) (offset : UInt32) : Option UInt32 :=
  if (page offset).2 then some (offset + UInt32.ofNat (page offset).1.length) else none

/-- The loop gets to an empty page that says there are more. -/
def EmptyPage (page : UInt32 → Page) (start : UInt32) : Prop :=
  ∃ offset, ReflTransGen (Orbit.Leads (nextOffset page)) start offset ∧ page offset = ([], true)

section Loop

variable {server : Server} {entries : String → Int → List ZohoFileItem}
  {pageAt : String → UInt32 → Int → Page} {folderId : String} {fromMs : Int}

/-- **The loop is a run through the offsets.** It ends in time when the run does. -/
theorem listPages_isSome_iff (hserver : Answers server entries pageAt) (fuel request : Nat)
    (st : ListState) : (listPages server folderId fromMs fuel request st).isSome = true ↔
      Orbit.steps (nextOffset (pageAt folderId · fromMs)) fuel st.offset = none := by
  induction fuel generalizing request st with
  | zero => simp [listPages, Orbit.steps]
  | succ fuel ih =>
      rw [listPages, Orbit.steps, hserver.reply]
      cases hpage : pageAt folderId st.offset fromMs with
      | mk items more =>
          cases more with
          | false => simp [nextOffset, hpage]
          | true =>
              rw [nextOffset, hpage, if_pos rfl]
              exact ih _ _

/-- The whole call. -/
theorem returns_iff (hserver : Answers server entries pageAt) {json : CursorJson} {rootId : String}
    {nowMs : Nat} {cursor : Option String} :
    (∃ result, Returns json rootId nowMs server cursor result) ↔
      ∀ state folder queue, loadState json rootId nowMs cursor = some state →
        state.queue = folder :: queue →
        Orbit.Halts (nextOffset (pageAt folder.folderId · state.fromMs)) folder.nextOffset := by
  unfold Returns listChanges
  cases hload : loadState json rootId nowMs cursor with
  | none => simp
  | some state =>
      cases hqueue : state.queue with
      | nil =>
          -- a drained queue: the call returns without a request
          refine iff_of_true ⟨_, 0, by simp only [hqueue]; rfl⟩ ?_
          intro state' folder queue hstate hcons
          cases hstate
          rw [hqueue] at hcons
          cases hcons
      | cons folder queue =>
          simp only [hqueue, Option.some.injEq]
          constructor
          · rintro ⟨result, fuel, h⟩ _ _ _ rfl hcons
            rw [hqueue] at hcons
            cases hcons
            obtain ⟨st, hst, -⟩ := Option.map_eq_some_iff.mp h
            exact ⟨fuel, (listPages_isSome_iff hserver fuel 0 _).mp (by rw [hst]; rfl)⟩
          · intro h
            obtain ⟨fuel, hfuel⟩ := h state folder queue rfl hqueue
            obtain ⟨st, hst⟩ := Option.isSome_iff_exists.mp
              ((listPages_isSome_iff hserver fuel 0 ⟨{ state with queue := queue }, [],
                folder.nextOffset, false, []⟩).mpr hfuel)
            exact ⟨_, fuel, by rw [hst]; rfl⟩

end Loop

/-! ## Short folders -/

section Short

variable {page : UInt32 → Page} {entries : List ZohoFileItem}

/-- The page is a run of entries from its offset on. -/
def RunsOver (page : UInt32 → Page) (entries : List ZohoFileItem) : Prop :=
  ∀ offset, ∃ count, (page offset).1 = (entries.drop offset.toNat).take count

/-- A page that is not empty moves the offset up, and not past the last entry. -/
theorem nextOffset_lt (hrun : RunsOver page entries) (hshort : entries.length < 2 ^ 32)
    {offset offset' : UInt32} (h : Orbit.Leads (nextOffset page) offset offset')
    (hpage : page offset ≠ ([], true)) : offset.toNat < offset'.toNat := by
  unfold Orbit.Leads nextOffset at h
  split_ifs at h with hmore
  cases h
  have hne : (page offset).1 ≠ [] := fun hnil => hpage (Prod.ext hnil hmore)
  have hpos := List.length_pos_of_ne_nil hne
  obtain ⟨count, hcount⟩ := hrun offset
  have hlen : (page offset).1.length ≤ entries.length - offset.toNat := by
    rw [hcount, ← List.length_drop]
    exact List.length_take_le' _ _
  rw [UInt32.toNat_add, UInt32.toNat_ofNat']
  omega

/-- **Below 2^32 entries** the offsets only come back to the one of an empty page. -/
theorem comesBack_iff_emptyPage (hrun : RunsOver page entries) (hshort : entries.length < 2 ^ 32)
    (start : UInt32) : Orbit.ComesBack (nextOffset page) start ↔ EmptyPage page start := by
  constructor
  · rintro ⟨offset, hreach, hcycle⟩
    by_contra hnone
    have hup : ∀ offset', TransGen (Orbit.Leads (nextOffset page)) offset offset' →
        offset.toNat < offset'.toNat := by
      intro offset' h
      induction h with
      | single hstep => exact nextOffset_lt hrun hshort hstep fun hpage => hnone ⟨_, hreach, hpage⟩
      | tail hpre hstep ih =>
          refine Nat.lt_trans ih (nextOffset_lt hrun hshort hstep fun hpage => ?_)
          exact hnone ⟨_, hreach.trans hpre.to_reflTransGen, hpage⟩
    exact Nat.lt_irrefl _ (hup offset hcycle)
  · rintro ⟨offset, hreach, hpage⟩
    refine ⟨offset, hreach, .single ?_⟩
    unfold Orbit.Leads nextOffset
    rw [hpage]
    simp

end Short

/-! ## The theorem -/

instance finiteUInt32 : Finite UInt32 :=
  Finite.of_injective UInt32.toFin fun _ _ h => UInt32.toFin_inj.mp h

/-- **When the page loop ends.** A call returns exactly when the offsets it asks for never come back
to an earlier one; and below 2^32 entries, exactly when no page it gets to is empty and says that
there are more. -/
theorem page_loop_ends_iff {server : Server} {entries : String → Int → List ZohoFileItem}
    {pageAt : String → UInt32 → Int → Page} (hserver : Answers server entries pageAt)
    (json : CursorJson) (rootId : String) (nowMs : Nat) (cursor : Option String) :
    ((∃ result, Returns json rootId nowMs server cursor result) ↔
      ∀ state folder queue, loadState json rootId nowMs cursor = some state →
        state.queue = folder :: queue →
        ¬ Orbit.ComesBack (nextOffset (pageAt folder.folderId · state.fromMs)) folder.nextOffset) ∧
    ((∀ folderId fromMs, (entries folderId fromMs).length < 2 ^ 32) →
      ((∃ result, Returns json rootId nowMs server cursor result) ↔
        ∀ state folder queue, loadState json rootId nowMs cursor = some state →
          state.queue = folder :: queue →
          ¬ EmptyPage (pageAt folder.folderId · state.fromMs) folder.nextOffset)) := by
  have hends : (∃ result, Returns json rootId nowMs server cursor result) ↔
      ∀ state folder queue, loadState json rootId nowMs cursor = some state →
        state.queue = folder :: queue →
        ¬ Orbit.ComesBack (nextOffset (pageAt folder.folderId · state.fromMs))
          folder.nextOffset := by
    rw [returns_iff hserver]
    simp only [Orbit.halts_iff]
  refine ⟨hends, ?_⟩
  intro hshort
  rw [hends]
  have hback : ∀ (folder : FolderCursor) (fromMs : Int),
      Orbit.ComesBack (nextOffset (pageAt folder.folderId · fromMs)) folder.nextOffset ↔
        EmptyPage (pageAt folder.folderId · fromMs) folder.nextOffset := by
    intro folder fromMs
    have hrun : RunsOver (pageAt folder.folderId · fromMs) (entries folder.folderId fromMs) := by
      intro offset
      obtain ⟨count, -, hcount⟩ := hserver.run folder.folderId offset fromMs
      exact ⟨count, hcount⟩
    exact comesBack_iff_emptyPage hrun (hshort folder.folderId fromMs) folder.nextOffset
  simp only [hback]

/-! ## A drive of one file -/

def onlyFile : List ZohoFileItem := [⟨"f1", some "a.txt", some "file", none, none⟩]

/-- The folders are full listings of the file; the flag is set where the caller says so. -/
def filePage (more : UInt32 → Bool) (_folderId : String) (offset : UInt32) (_fromMs : Int) : Page :=
  ((onlyFile.drop offset.toNat).take 100, more offset)

def fileServer (more : UInt32 → Bool) : Server := fun _ folderId offset fromMs =>
  .response 200 none (.ok (some (filePage more folderId offset fromMs).1,
    some (some (filePage more folderId offset fromMs).2)))

theorem fileServer_answers (more : UInt32 → Bool) :
    Answers (fileServer more) (fun _ _ => onlyFile) (filePage more) :=
  ⟨fun _ _ _ _ => rfl, fun _ _ _ => ⟨100, Nat.le_refl _, rfl⟩⟩

/-- The first page is the last. -/
theorem last_page_ends :
    ∃ result, Returns compactJson "root" 0 (fileServer fun _ => false) none result := by
  apply ((page_loop_ends_iff (fileServer_answers _) compactJson "root" 0 none).2
    fun _ _ => by decide).mpr
  rintro state folder queue - - ⟨offset, -, hpage⟩
  cases congrArg Prod.snd hpage

/-- **A page loop that does not end.** The server says that there is more behind the one file, and
goes on saying so where there is nothing. -/
theorem flagged_empty_page_loops :
    Answers (fileServer fun _ => true) (fun _ _ => onlyFile) (filePage fun _ => true) ∧
      ¬ ∃ result, Returns compactJson "root" 0 (fileServer fun _ => true) none result := by
  refine ⟨fileServer_answers _, ?_⟩
  rw [returns_iff (fileServer_answers _)]
  intro hends
  have hhalts := hends (.bootstrap "root" 0) ⟨"root", 0⟩ [] rfl rfl
  rw [Orbit.halts_iff] at hhalts
  apply hhalts
  -- after the file the offset is 1, and stays there
  have hfirst : Orbit.Leads (nextOffset (filePage (fun _ => true) "root" · 0)) 0 1 := by
    unfold Orbit.Leads
    decide
  have hagain : Orbit.Leads (nextOffset (filePage (fun _ => true) "root" · 0)) 1 1 := by
    unfold Orbit.Leads
    decide
  exact ⟨1, .single hfirst, .single hagain⟩

end McpGateway.Zoho
