import Mathlib.Data.List.Basic

/-! # Regular expressions with assertions

What a backtracking engine finds when it may try every alternative: the positions at which a match
can end. A position is the text before it, reversed, and the text from it on; an assertion looks at
both. -/

namespace McpGateway.Foundation

/-- A position in a text. -/
abbrev Position (α : Type) := List α × List α

inductive Regex (α : Type) where
  | one (p : α → Bool)
  | look (p : Position α → Bool)
  | seq (r r' : Regex α)
  | alt (r r' : Regex α)
  | atLeast (n : Nat) (r : Regex α)

namespace Regex

variable {α : Type}

/-- Repeat a step at least `least` times, and up to `fuel` times more. -/
def repeatStep (step : Position α → List (Position α)) : (least fuel : Nat) → Position α →
    List (Position α)
  | least + 1, fuel, p => (step p).flatMap (repeatStep step least fuel)
  | 0, fuel + 1, p => p :: (step p).flatMap (repeatStep step 0 fuel)
  | 0, 0, p => [p]

/-- Where a match that begins at the position can end. -/
def ends : Regex α → Position α → List (Position α)
  | one _, (_, []) => []
  | one p, (before, c :: after) => if p c then [(c :: before, after)] else []
  | look p, pos => if p pos then [pos] else []
  | seq r r', pos => (r.ends pos).flatMap r'.ends
  | alt r r', pos => r.ends pos ++ r'.ends pos
  | atLeast n r, pos => repeatStep r.ends n pos.2.length pos

/-- The positions of a text from one on. -/
def positionsFrom (before : List α) : List α → List (Position α)
  | [] => [(before, [])]
  | c :: after => (before, c :: after) :: positionsFrom (c :: before) after

/-- Some part of the text matches. -/
def find (r : Regex α) (text : List α) : Bool :=
  (positionsFrom [] text).any fun pos => !(r.ends pos).isEmpty

/-- One regex after another. -/
def seqs : List (Regex α) → Regex α
  | [] => .look fun _ => true
  | [r] => r
  | r :: rs => .seq r (seqs rs)

/-- One regex or another. -/
def alts : List (Regex α) → Regex α
  | [] => .look fun _ => false
  | [r] => r
  | r :: rs => .alt r (alts rs)

/-- `r?` -/
def optional (r : Regex α) : Regex α := .alt r (.look fun _ => true)

/-! ## Matches in a text

A position only moves forward, so a match splits the text in three: what is before it, the match
itself, and what is left. -/

/-- The middle part of the text `x ++ m ++ y` matches. -/
def Matches (r : Regex α) (x m y : List α) : Prop :=
  (m.reverse ++ x.reverse, y) ∈ r.ends (x.reverse, m ++ y)

instance [DecidableEq α] (r : Regex α) (x m y : List α) : Decidable (r.Matches x m y) :=
  inferInstanceAs (Decidable (_ ∈ _))

/-- The second position is further on in the same text. -/
def Forward (pos pos' : Position α) : Prop :=
  ∃ m, pos.2 = m ++ pos'.2 ∧ pos'.1 = m.reverse ++ pos.1

theorem Forward.refl (pos : Position α) : Forward pos pos := ⟨[], rfl, rfl⟩

theorem Forward.trans {p₁ p₂ p₃ : Position α} (h : Forward p₁ p₂) (h' : Forward p₂ p₃) :
    Forward p₁ p₃ := by
  obtain ⟨m, hafter, hbefore⟩ := h
  obtain ⟨m', hafter', hbefore'⟩ := h'
  refine ⟨m ++ m', ?_, ?_⟩
  · rw [hafter, hafter', List.append_assoc]
  · rw [hbefore', hbefore, List.reverse_append, List.append_assoc]

theorem repeatStep_forward {step : Position α → List (Position α)}
    (hstep : ∀ pos, ∀ pos' ∈ step pos, Forward pos pos') (least fuel : Nat) (pos : Position α) :
    ∀ pos' ∈ repeatStep step least fuel pos, Forward pos pos' := by
  fun_induction repeatStep step least fuel pos with
  | case1 least fuel pos ih =>
      intro pos' h
      obtain ⟨mid, hmid, h'⟩ := List.mem_flatMap.mp h
      exact (hstep pos mid hmid).trans (ih mid pos' h')
  | case2 fuel pos ih =>
      intro pos' h
      rcases List.mem_cons.mp h with rfl | h
      · exact Forward.refl _
      · obtain ⟨mid, hmid, h'⟩ := List.mem_flatMap.mp h
        exact (hstep pos mid hmid).trans (ih mid pos' h')
  | case3 pos =>
      intro pos' h
      rw [List.mem_singleton.mp h]
      exact Forward.refl _

theorem ends_forward (r : Regex α) : ∀ pos, ∀ pos' ∈ r.ends pos, Forward pos pos' := by
  induction r with
  | one p =>
      rintro ⟨before, after⟩ pos' h
      cases after with
      | nil => cases h
      | cons c after =>
          simp only [ends] at h
          split at h
          · rw [List.mem_singleton.mp h]
            exact ⟨[c], rfl, rfl⟩
          · cases h
  | look p =>
      intro pos pos' h
      simp only [ends] at h
      split at h
      · rw [List.mem_singleton.mp h]
        exact Forward.refl _
      · cases h
  | seq r r' ih ih' =>
      intro pos pos' h
      obtain ⟨mid, hmid, h'⟩ := List.mem_flatMap.mp h
      exact (ih pos mid hmid).trans (ih' mid pos' h')
  | alt r r' ih ih' =>
      intro pos pos' h
      rcases List.mem_append.mp h with h | h
      · exact ih pos pos' h
      · exact ih' pos pos' h
  | atLeast n r ih =>
      intro pos pos' h
      exact repeatStep_forward ih n pos.2.length pos pos' h

theorem mem_positionsFrom {before text : List α} {pos : Position α} :
    pos ∈ positionsFrom before text ↔
      ∃ x rest, text = x ++ rest ∧ pos = (x.reverse ++ before, rest) := by
  induction text generalizing before with
  | nil =>
      constructor
      · intro h
        exact ⟨[], [], rfl, List.mem_singleton.mp h⟩
      · rintro ⟨x, rest, htext, rfl⟩
        obtain ⟨rfl, rfl⟩ := List.append_eq_nil_iff.mp htext.symm
        exact List.mem_singleton.mpr rfl
  | cons c text ih =>
      constructor
      · intro h
        rcases List.mem_cons.mp h with rfl | h
        · exact ⟨[], c :: text, rfl, rfl⟩
        · obtain ⟨x, rest, rfl, rfl⟩ := ih.mp h
          exact ⟨c :: x, rest, rfl, by simp⟩
      · rintro ⟨x, rest, htext, rfl⟩
        cases x with
        | nil =>
            cases htext
            exact List.mem_cons_self
        | cons d x =>
            cases htext
            exact List.mem_cons_of_mem _ (ih.mpr ⟨x, rest, rfl, by simp⟩)

/-- The search finds a match where the text has one. -/
theorem find_iff {r : Regex α} {text : List α} :
    r.find text = true ↔ ∃ x m y, text = x ++ m ++ y ∧ r.Matches x m y := by
  rw [find, List.any_eq_true]
  constructor
  · rintro ⟨pos, hpos, hne⟩
    obtain ⟨x, rest, rfl, rfl⟩ := mem_positionsFrom.mp hpos
    rw [List.append_nil] at hne
    obtain ⟨pos', hend⟩ : ∃ pos', pos' ∈ r.ends (x.reverse, rest) := by
      cases hends : r.ends (x.reverse, rest) with
      | nil => simp [hends] at hne
      | cons pos' tail => exact ⟨pos', List.mem_cons_self⟩
    obtain ⟨m, hrest, hbefore⟩ := r.ends_forward _ _ hend
    obtain ⟨before, y⟩ := pos'
    dsimp only at hrest hbefore
    subst hrest hbefore
    exact ⟨x, m, y, (List.append_assoc x m y).symm, hend⟩
  · rintro ⟨x, m, y, rfl, h⟩
    refine ⟨(x.reverse, m ++ y), mem_positionsFrom.mpr ⟨x, m ++ y, by simp, by simp⟩, ?_⟩
    cases hends : r.ends (x.reverse, m ++ y) with
    | nil =>
        rw [Matches, hends] at h
        cases h
    | cons pos' tail => rfl

theorem matches_look {p : Position α → Bool} {x m y : List α} :
    (look p).Matches x m y ↔ m = [] ∧ p (x.reverse, y) = true := by
  rw [Matches, ends]
  constructor
  · intro h
    split at h
    · next hp =>
        have hm : m = [] := by simpa using List.mem_singleton.mp h
        subst hm
        exact ⟨rfl, hp⟩
    · cases h
  · rintro ⟨rfl, hp⟩
    rw [List.nil_append, if_pos hp]
    exact List.mem_singleton.mpr rfl

theorem matches_seq {r r' : Regex α} {x m y : List α} :
    (seq r r').Matches x m y ↔
      ∃ m₁ m₂, m = m₁ ++ m₂ ∧ r.Matches x m₁ (m₂ ++ y) ∧ r'.Matches (x ++ m₁) m₂ y := by
  constructor
  · intro h
    obtain ⟨⟨before, rest⟩, hmid, h'⟩ := List.mem_flatMap.mp h
    obtain ⟨m₁, hrest, hbefore⟩ := r.ends_forward _ _ hmid
    obtain ⟨m₂, hrest', hbefore'⟩ := r'.ends_forward _ _ h'
    dsimp only at hrest hbefore hrest' hbefore'
    subst hbefore hrest'
    have hm : m = m₁ ++ m₂ := by
      rw [← List.append_assoc] at hrest
      exact List.append_cancel_right hrest
    subst hm
    refine ⟨m₁, m₂, rfl, ?_, ?_⟩
    · rw [Matches, ← List.append_assoc]
      exact hmid
    · simpa only [Matches, List.reverse_append, List.append_assoc] using h'
  · rintro ⟨m₁, m₂, rfl, h, h'⟩
    refine List.mem_flatMap.mpr ⟨(m₁.reverse ++ x.reverse, m₂ ++ y), ?_, ?_⟩
    · rw [List.append_assoc]
      exact h
    · simpa only [Matches, List.reverse_append, List.append_assoc] using h'

theorem matches_alt {r r' : Regex α} {x m y : List α} :
    (alt r r').Matches x m y ↔ r.Matches x m y ∨ r'.Matches x m y :=
  List.mem_append

theorem mem_ends_one {p : α → Bool} {pos pos' : Position α} :
    pos' ∈ (one p).ends pos ↔
      ∃ c rest, pos.2 = c :: rest ∧ p c = true ∧ pos' = (c :: pos.1, rest) := by
  obtain ⟨before, after⟩ := pos
  cases after with
  | nil => simp [ends]
  | cons c after =>
      simp only [ends]
      cases hp : p c with
      | false => simp [hp]
      | true => simp [hp]

theorem matches_one {p : α → Bool} {x m y : List α} :
    (one p).Matches x m y ↔ ∃ c, m = [c] ∧ p c = true := by
  rw [Matches, mem_ends_one]
  constructor
  · rintro ⟨c, rest, hafter, hp, hpos⟩
    obtain ⟨hbefore, rfl⟩ := Prod.mk.injEq .. ▸ hpos
    have hm : m = [c] := List.append_cancel_right hafter
    exact ⟨c, hm, hp⟩
  · rintro ⟨c, rfl, hp⟩
    exact ⟨c, y, rfl, hp, rfl⟩

/-! ## Matches that do not look around

Where a regex asserts nothing, what stands before and after a match makes no difference. -/

/-- No assertion but a constant one, and repetition of a single element only. -/
def Plain : Regex α → Prop
  | one _ => True
  | look p => ∃ b, p = fun _ => b
  | seq r r' => r.Plain ∧ r'.Plain
  | alt r r' => r.Plain ∧ r'.Plain
  | atLeast _ r => ∃ p, r = one p

theorem mem_flatMap_one {p : α → Bool} {f : Position α → List (Position α)}
    (hf : ∀ pos, ∀ pos' ∈ f pos, Forward pos pos') {before m y : List α} :
    (m.reverse ++ before, y) ∈ ((one p).ends (before, m ++ y)).flatMap f ↔
      ∃ c m', m = c :: m' ∧ p c = true ∧
        (m'.reverse ++ (c :: before), y) ∈ f (c :: before, m' ++ y) := by
  rw [List.mem_flatMap]
  constructor
  · rintro ⟨mid, hmid, h⟩
    obtain ⟨c, rest, hafter, hp, rfl⟩ := mem_ends_one.mp hmid
    -- what follows the element is behind it, so the element is the first of `m`
    obtain ⟨m', hrest, hbefore⟩ := hf _ _ h
    dsimp only at hafter hrest hbefore
    subst hrest
    have hm : m = c :: m' := List.append_cancel_right hafter
    subst hm
    exact ⟨c, m', rfl, hp, by simpa using h⟩
  · rintro ⟨c, m', rfl, hp, h⟩
    exact ⟨(c :: before, m' ++ y), mem_ends_one.mpr ⟨c, m' ++ y, rfl, hp, rfl⟩, by simpa using h⟩

/-- One element in front: both bounds of the length grow by one. -/
theorem mem_flatMap_one_iff {p : α → Bool} {f : Position α → List (Position α)} {y : List α}
    {least most : Nat} (hf : ∀ pos, ∀ pos' ∈ f pos, Forward pos pos')
    (hmem : ∀ {before m : List α}, (m.reverse ++ before, y) ∈ f (before, m ++ y) ↔
      least ≤ m.length ∧ m.length ≤ most ∧ ∀ c ∈ m, p c = true) {before m : List α} :
    (m.reverse ++ before, y) ∈ ((one p).ends (before, m ++ y)).flatMap f ↔
      least + 1 ≤ m.length ∧ m.length ≤ most + 1 ∧ ∀ c ∈ m, p c = true := by
  rw [mem_flatMap_one hf]
  constructor
  · rintro ⟨c, m', rfl, hp, h⟩
    obtain ⟨hleast, hmost, hall⟩ := hmem.mp h
    exact ⟨Nat.succ_le_succ hleast, Nat.succ_le_succ hmost, List.forall_mem_cons.mpr ⟨hp, hall⟩⟩
  · rintro ⟨hleast, hmost, hall⟩
    cases m with
    | nil => cases hleast
    | cons c m =>
        obtain ⟨hp, hall⟩ := List.forall_mem_cons.mp hall
        exact ⟨c, m, rfl, hp,
          hmem.mpr ⟨Nat.le_of_succ_le_succ hleast, Nat.le_of_succ_le_succ hmost, hall⟩⟩

theorem mem_repeatStep_one {p : α → Bool} {n fuel : Nat} {before m y : List α} :
    (m.reverse ++ before, y) ∈ repeatStep (one p).ends n fuel (before, m ++ y) ↔
      n ≤ m.length ∧ m.length ≤ n + fuel ∧ ∀ c ∈ m, p c = true := by
  have hforward := repeatStep_forward (one p).ends_forward
  -- as `repeatStep`: the elements that must be there, then those that may be
  induction n generalizing before m with
  | succ n ih =>
      rw [repeatStep, mem_flatMap_one_iff (hforward n fuel) ih, Nat.succ_add]
  | zero =>
      induction fuel generalizing before m with
      | zero =>
          rw [repeatStep, List.mem_singleton]
          constructor
          · intro h
            have hm : m = [] := by simpa using congrArg Prod.fst h
            subst hm
            simp
          · rintro ⟨-, hmost, -⟩
            have hm : m = [] := List.length_eq_zero_iff.mp (by omega)
            subst hm
            rfl
      | succ fuel ih =>
          rw [repeatStep, List.mem_cons, mem_flatMap_one_iff (hforward 0 fuel) ih]
          constructor
          · rintro (h | ⟨-, hmost, hall⟩)
            · have hm : m = [] := by simpa using congrArg Prod.fst h
              subst hm
              simp
            · exact ⟨Nat.zero_le _, hmost, hall⟩
          · rintro ⟨-, hmost, hall⟩
            cases m with
            | nil => exact Or.inl rfl
            | cons c m => exact Or.inr ⟨Nat.succ_le_succ (Nat.zero_le _), hmost, hall⟩

/-- A repeated element, however long the text behind it is. -/
theorem matches_atLeast_one {p : α → Bool} {n : Nat} {x m y : List α} :
    (atLeast n (one p)).Matches x m y ↔ n ≤ m.length ∧ ∀ c ∈ m, p c = true := by
  rw [Matches, ends, mem_repeatStep_one]
  constructor
  · rintro ⟨hleast, -, hall⟩
    exact ⟨hleast, hall⟩
  · rintro ⟨hleast, hall⟩
    refine ⟨hleast, ?_, hall⟩
    rw [List.length_append]
    omega

theorem Plain.matches {r : Regex α} (hr : r.Plain) {x m y : List α} (x' y' : List α)
    (h : r.Matches x m y) : r.Matches x' m y' := by
  induction r generalizing x m y x' y' with
  | one p => exact matches_one.mpr (matches_one.mp h)
  | look p =>
      obtain ⟨b, rfl⟩ := hr
      obtain ⟨hm, hb⟩ := matches_look.mp h
      exact matches_look.mpr ⟨hm, hb⟩
  | seq r r' ih ih' =>
      obtain ⟨m₁, m₂, rfl, h₁, h₂⟩ := matches_seq.mp h
      exact matches_seq.mpr ⟨m₁, m₂, rfl, ih hr.1 _ _ h₁, ih' hr.2 _ _ h₂⟩
  | alt r r' ih ih' =>
      rcases matches_alt.mp h with h | h
      · exact matches_alt.mpr (Or.inl (ih hr.1 _ _ h))
      · exact matches_alt.mpr (Or.inr (ih' hr.2 _ _ h))
  | atLeast n r ih =>
      obtain ⟨p, rfl⟩ := hr
      exact matches_atLeast_one.mpr (matches_atLeast_one.mp h)

theorem plain_seqs {rs : List (Regex α)} (h : ∀ r ∈ rs, r.Plain) : (seqs rs).Plain := by
  fun_induction seqs rs with
  | case1 => exact ⟨true, rfl⟩
  | case2 r => exact h r List.mem_cons_self
  | case3 r rs hne ih =>
      obtain ⟨hr, hrs⟩ := List.forall_mem_cons.mp h
      exact ⟨hr, ih hrs⟩

theorem plain_alts {rs : List (Regex α)} (h : ∀ r ∈ rs, r.Plain) : (alts rs).Plain := by
  fun_induction alts rs with
  | case1 => exact ⟨false, rfl⟩
  | case2 r => exact h r List.mem_cons_self
  | case3 r rs hne ih =>
      obtain ⟨hr, hrs⟩ := List.forall_mem_cons.mp h
      exact ⟨hr, ih hrs⟩

/-! ## Evaluation

The recursion of `repeatStep` is on both numbers at once, which does not reduce. The same in two
recursions does. -/

/-- Repeat a step up to `fuel` times. -/
def repeatUpTo (step : Position α → List (Position α)) : (fuel : Nat) → Position α →
    List (Position α)
  | 0, p => [p]
  | fuel + 1, p => p :: (step p).flatMap (repeatUpTo step fuel)

/-- Repeat a step `least` times, then go on. -/
def repeatThen (step next : Position α → List (Position α)) : (least : Nat) → Position α →
    List (Position α)
  | 0, p => next p
  | least + 1, p => (step p).flatMap (repeatThen step next least)

theorem repeatStep_eq (step : Position α → List (Position α)) (least fuel : Nat) :
    repeatStep step least fuel = repeatThen step (repeatUpTo step fuel) least := by
  funext p
  induction least generalizing p with
  | zero =>
      induction fuel generalizing p with
      | zero => rw [repeatStep, repeatThen, repeatUpTo]
      | succ fuel ih =>
          have hrest : repeatStep step 0 fuel = repeatUpTo step fuel := funext ih
          rw [repeatStep, repeatThen, repeatUpTo, hrest]
  | succ least ih =>
      have hrest : repeatStep step least fuel = repeatThen step (repeatUpTo step fuel) least :=
        funext ih
      rw [repeatStep, repeatThen, hrest]

/-- `ends`, reducibly. -/
def run : Regex α → Position α → List (Position α)
  | one _, (_, []) => []
  | one p, (before, c :: after) => if p c then [(c :: before, after)] else []
  | look p, pos => if p pos then [pos] else []
  | seq r r', pos => (r.run pos).flatMap r'.run
  | alt r r', pos => r.run pos ++ r'.run pos
  | atLeast n r, pos => repeatThen r.run (repeatUpTo r.run pos.2.length) n pos

theorem ends_eq_run (r : Regex α) : r.ends = r.run := by
  induction r with
  | one p =>
      funext ⟨before, after⟩
      cases after with
      | nil => rfl
      | cons c after => rfl
  | look p => rfl
  | seq r r' ih ih' =>
      funext pos
      rw [ends, run, ih, ih']
  | alt r r' ih ih' =>
      funext pos
      rw [ends, run, ih, ih']
  | atLeast n r ih =>
      funext pos
      rw [ends, run, ih, repeatStep_eq]

theorem find_eq_run (r : Regex α) (text : List α) :
    r.find text = (positionsFrom [] text).any fun pos => !(r.run pos).isEmpty := by
  rw [find, ends_eq_run]

end Regex

end McpGateway.Foundation
