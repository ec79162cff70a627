import Mathlib.Data.String.Basic
import McpGateway.Foundation.Decimal
import McpGateway.Foundation.Json
import McpGateway.Zoho.ListChanges

/-! # The dates of a change

`format_epoch_ms` counts years of 365 days and months of 30. What it prints is read back as RFC 3339
does, against the calendar.

* `formatEpochMs_toList` — the fields it prints, with a year of four digits or five.
* `rfc3339Utc_formatEpochMs` — the days on which that is a date.
* `formatEpochMs_le_iff` — when two timestamps are in order.
* `formatEpochMs_iff` — both, for the milliseconds of the years up to 9999. -/

namespace McpGateway.Zoho

open Foundation Foundation.Json

/-! ## RFC 3339 -/

def isLeap (year : Nat) : Prop := year % 4 = 0 ∧ (year % 100 ≠ 0 ∨ year % 400 = 0)

instance (year : Nat) : Decidable (isLeap year) := inferInstanceAs (Decidable (_ ∧ _))

def daysInMonth (year month : Nat) : Nat :=
  if month = 2 then (if isLeap year then 29 else 28)
  else if month = 4 ∨ month = 6 ∨ month = 9 ∨ month = 11 then 30
  else 31

/-- The days from 1970-01-01 to the first day of a later year. -/
def daysBefore (year : Nat) : Nat :=
  365 * (year - 1970) + ((year - 1) / 4 - 492) - ((year - 1) / 100 - 19) + ((year - 1) / 400 - 4)

/-- A year has 365 days, or 366 in a leap year. -/
theorem daysBefore_succ {year : Nat} (h : 1970 ≤ year) :
    daysBefore (year + 1) = daysBefore year + if isLeap year then 366 else 365 := by
  have hfour : year / 4 = (year - 1) / 4 + if year % 4 = 0 then 1 else 0 := by
    split_ifs <;> omega
  have hhundred : year / 100 = (year - 1) / 100 + if year % 100 = 0 then 1 else 0 := by
    split_ifs <;> omega
  have hcycle : year / 400 = (year - 1) / 400 + if year % 400 = 0 then 1 else 0 := by
    split_ifs <;> omega
  have hdvd : (year % 400 = 0 → year % 100 = 0) ∧ (year % 100 = 0 → year % 4 = 0) := by omega
  have hpast : 492 ≤ (year - 1) / 4 ∧ 19 ≤ (year - 1) / 100 ∧ 4 ≤ (year - 1) / 400 := by omega
  have hfew : (year - 1) / 100 - 19 ≤ 365 * (year - 1970) + ((year - 1) / 4 - 492) := by omega
  unfold daysBefore isLeap
  rw [Nat.add_sub_cancel, hfour, hhundred, hcycle]
  generalize (year - 1) / 4 = fours at *
  generalize (year - 1) / 100 = hundreds at *
  generalize (year - 1) / 400 = cycles at *
  by_cases h400 : year % 400 = 0
  · simp only [h400, hdvd.1 h400, hdvd.2 (hdvd.1 h400), if_true, or_true, and_true]
    omega
  · by_cases h100 : year % 100 = 0
    · simp only [h400, h100, hdvd.2 h100, ne_eq, not_true_eq_false, or_false, and_false, if_false,
        if_true]
      omega
    · by_cases h4 : year % 4 = 0
      · simp only [h400, h100, h4, ne_eq, not_false_eq_true, true_or, and_true, if_false, if_true]
        omega
      · simp only [h400, h100, h4, false_and, if_false]
        omega

structure DateTime where
  year : Nat
  month : Nat
  day : Nat
  hour : Nat
  minute : Nat
  second : Nat
  deriving DecidableEq, Repr

/-- The restrictions of section 5.7; leap seconds are none of them. -/
def DateTime.Real (t : DateTime) : Prop :=
  (1 ≤ t.month ∧ t.month ≤ 12) ∧ (1 ≤ t.day ∧ t.day ≤ daysInMonth t.year t.month) ∧
    t.hour ≤ 23 ∧ t.minute ≤ 59 ∧ t.second ≤ 59

instance (t : DateTime) : Decidable t.Real := inferInstanceAs (Decidable (_ ∧ _))

/-- `time-secfrac`, which may be missing. -/
def skipFraction : List Char → List Char
  | '.' :: c :: cs => if c.isDigit then cs.dropWhile Char.isDigit else '.' :: c :: cs
  | cs => cs

/-- `date-time` with the offset `Z`. -/
def readDateTime (cs : List Char) : Option DateTime := do
  let (year, cs) ← readDecimal 4 0 cs
  let cs ← eat ['-'] cs
  let (month, cs) ← readDecimal 2 0 cs
  let cs ← eat ['-'] cs
  let (day, cs) ← readDecimal 2 0 cs
  let cs ← eat ['T'] cs
  let (hour, cs) ← readDecimal 2 0 cs
  let cs ← eat [':'] cs
  let (minute, cs) ← readDecimal 2 0 cs
  let cs ← eat [':'] cs
  let (second, cs) ← readDecimal 2 0 cs
  if skipFraction cs = ['Z'] then some ⟨year, month, day, hour, minute, second⟩ else none

/-- The date and time that a valid RFC 3339 UTC timestamp stands for. -/
def rfc3339Utc (s : String) : Option DateTime :=
  (readDateTime s.toList).filter fun t => t.Real

/-! ## What is printed -/

/-- The fields that are printed for the milliseconds. -/
def printedFields (ms : Nat) : DateTime :=
  let totalSecs := ms / 1000
  let days := totalSecs / 86400
  ⟨1970 + days / 365, days % 365 / 30 + 1, days % 365 % 30 + 1, totalSecs / 3600 % 24,
    totalSecs / 60 % 60, totalSecs % 60⟩

/-- The text, with a year of `w` digits. -/
def stamp (w : Nat) (t : DateTime) : List Char :=
  decimal w t.year ++ '-' :: (decimal 2 t.month ++ '-' :: (decimal 2 t.day ++ 'T' ::
    (decimal 2 t.hour ++ ':' :: (decimal 2 t.minute ++ ':' :: (decimal 2 t.second ++ ['Z'])))))

/-- The fields but the year fit into two digits. -/
structure DateTime.Fits (t : DateTime) : Prop where
  month : t.month < 10 ^ 2
  day : t.day < 10 ^ 2
  hour : t.hour < 10 ^ 2
  minute : t.minute < 10 ^ 2
  second : t.second < 10 ^ 2

theorem printedFields_fits (ms : Nat) : (printedFields ms).Fits := by
  constructor <;> dsimp only [printedFields] <;> omega

theorem padded_toList {w n : Nat} (hw : 0 < w) (hn : n < 10 ^ w) :
    (padded w n).toList = decimal w n := by
  rw [← pad_toDigits hw hn]
  have hrepr : (toString n).toList = Nat.toDigits 10 n := by
    rw [Nat.toString_eq_repr, Nat.repr_eq_ofList_toDigits, String.toList_ofList]
  unfold padded
  rw [String.toList_append, String.toList_ofList, hrepr, ← hrepr, String.length_toList]

/-- What the daemon prints for milliseconds that are not negative. -/
theorem formatEpochMs_nat (n : Nat) :
    formatEpochMs n = padded 4 (printedFields n).year ++ "-" ++ padded 2 (printedFields n).month ++
      "-" ++ padded 2 (printedFields n).day ++ "T" ++ padded 2 (printedFields n).hour ++ ":" ++
      padded 2 (printedFields n).minute ++ ":" ++ padded 2 (printedFields n).second ++ "Z" := by
  have hsecs : (max (Int.tdiv n 1000) 0).toNat +
      (Int.tmod n 1000 * 1000000 % 4294967296).toNat / 1000000000 = n / 1000 := by
    have hnonneg : (0 : Int) ≤ n := Int.natCast_nonneg n
    have hnanos : (n % 1000 * 1000000 % 4294967296 : Int) = n % 1000 * 1000000 := by
      apply Int.emod_eq_of_lt <;> omega
    rw [Int.tdiv_eq_ediv_of_nonneg hnonneg, Int.tmod_eq_emod_of_nonneg hnonneg, hnanos]
    omega
  unfold formatEpochMs
  dsimp only
  rw [hsecs]
  rfl

/-- The text, once it is known how the year is printed. -/
theorem formatEpochMs_stamp {w n : Nat}
    (hyear : (padded 4 (printedFields n).year).toList = decimal w (printedFields n).year) :
    (formatEpochMs n).toList = stamp w (printedFields n) := by
  have hfits := printedFields_fits n
  simp only [formatEpochMs_nat, stamp, String.toList_append, List.append_assoc, hyear,
    padded_toList (by decide) hfits.month, padded_toList (by decide) hfits.day,
    padded_toList (by decide) hfits.hour, padded_toList (by decide) hfits.minute,
    padded_toList (by decide) hfits.second]
  rfl

/-- A year of four digits. -/
theorem formatEpochMs_toList {n : Nat} (hyear : (printedFields n).year < 10000) :
    (formatEpochMs n).toList = stamp 4 (printedFields n) :=
  formatEpochMs_stamp (padded_toList (by decide) hyear)

/-- A year of five digits overflows its field. -/
theorem formatEpochMs_toList_late {n : Nat} (hlow : 10000 ≤ (printedFields n).year)
    (hyear : (printedFields n).year < 100000) :
    (formatEpochMs n).toList = stamp 5 (printedFields n) := by
  apply formatEpochMs_stamp
  have hdigits : Nat.toDigits 10 (printedFields n).year = decimal 5 (printedFields n).year :=
    toDigits_eq_decimal hlow hyear
  have hrepr : (toString (printedFields n).year).toList = decimal 5 (printedFields n).year := by
    rw [Nat.toString_eq_repr, Nat.repr_eq_ofList_toDigits, String.toList_ofList, hdigits]
  unfold padded
  rw [String.toList_append, String.toList_ofList, hrepr, ← String.length_toList, hrepr,
    length_decimal]
  rfl

/-! ## Reading it back -/

theorem eat_cons (c : Char) (rest : List Char) : eat [c] (c :: rest) = some rest :=
  eat_append [c] rest

theorem readDateTime_stamp {t : DateTime} (hyear : t.year < 10 ^ 4) (hfits : t.Fits) :
    readDateTime (stamp 4 t) = some t := by
  unfold readDateTime stamp
  simp only [readDecimal_decimal hyear, readDecimal_decimal hfits.month,
    readDecimal_decimal hfits.day, readDecimal_decimal hfits.hour,
    readDecimal_decimal hfits.minute, readDecimal_decimal hfits.second, eat_cons,
    Option.bind_eq_bind, Option.bind_some, Nat.mul_zero, Nat.zero_add]
  rfl

/-- The fifth digit stands where the first separator is read. -/
theorem readDateTime_late {t : DateTime} (hyear : t.year < 10 ^ 5) :
    readDateTime (stamp 5 t) = none := by
  have hdiv : t.year / 10 < 10 ^ 4 := by omega
  have hdigit : ∀ d < 10, d.digitChar ≠ '-' := by decide
  have heat : ∀ rest, eat ['-'] ((t.year % 10).digitChar :: rest) = none := by
    intro rest
    have hne := hdigit (t.year % 10) (Nat.mod_lt _ (by decide))
    simp [eat, hne.symm]
  unfold readDateTime stamp
  rw [decimal_succ, List.append_assoc, readDecimal_decimal hdiv]
  simp only [Option.bind_eq_bind, Option.bind_some, List.singleton_append, heat, Option.bind_none]

/-! ## The days -/

/-- The day of the milliseconds, counted from 1970-01-01. -/
def epochDay (ms : Int) : Nat := ms.toNat / 86400000

/-- The day has a date in years of 365 days and months of 30. -/
def OnRealDay (ms : Int) : Prop :=
  epochDay ms < 365 * 8030 ∧ epochDay ms % 365 < 360 ∧ epochDay ms % 365 ≠ 59 ∧
    (epochDay ms % 365 = 58 → isLeap (1970 + epochDay ms / 365))

instance (ms : Int) : Decidable (OnRealDay ms) := inferInstanceAs (Decidable (_ ∧ _))

theorem epochDay_natCast (n : Nat) : epochDay n = n / 1000 / 86400 := by
  unfold epochDay
  omega

theorem printedFields_year (n : Nat) : (printedFields n).year = 1970 + epochDay n / 365 := by
  rw [epochDay_natCast]
  rfl

/-- Which of the printed fields are a date. -/
theorem printedFields_real_iff (n : Nat) :
    (printedFields n).Real ↔ epochDay n % 365 < 360 ∧ epochDay n % 365 ≠ 59 ∧
      (epochDay n % 365 = 58 → isLeap (1970 + epochDay n / 365)) := by
  rw [epochDay_natCast]
  have hclock : (printedFields n).hour ≤ 23 ∧ (printedFields n).minute ≤ 59 ∧
      (printedFields n).second ≤ 59 := by
    dsimp only [printedFields]
    omega
  have hdate : (1 ≤ (printedFields n).month ∧ (printedFields n).month ≤ 12) ∧
      (1 ≤ (printedFields n).day ∧
        (printedFields n).day ≤ daysInMonth (printedFields n).year (printedFields n).month) ↔
      n / 1000 / 86400 % 365 < 360 ∧ n / 1000 / 86400 % 365 ≠ 59 ∧
        (n / 1000 / 86400 % 365 = 58 → isLeap (1970 + n / 1000 / 86400 / 365)) := by
    dsimp only [printedFields]
    generalize n / 1000 / 86400 = d
    unfold daysInMonth
    by_cases hfeb : d % 365 / 30 + 1 = 2
    · rw [if_pos hfeb]
      by_cases hleap : isLeap (1970 + d / 365)
      · simp only [hleap, if_true, implies_true, and_true]
        omega
      · simp only [hleap, if_false, imp_false]
        omega
    · rw [if_neg hfeb]
      split_ifs <;> omega
  exact ⟨fun h => hdate.mp ⟨h.1, h.2.1⟩, fun h => ⟨(hdate.mpr h).1, (hdate.mpr h).2, hclock⟩⟩

/-- **The dates that exist.** -/
theorem rfc3339Utc_formatEpochMs {n : Nat} (hyear : n < 86400000 * daysBefore 10000) :
    (rfc3339Utc (formatEpochMs n)).isSome = true ↔ OnRealDay n := by
  have hbound : n < 86400000 * 2932897 := hyear
  have hprinted := printedFields_year n
  have hday := epochDay_natCast n
  by_cases hlate : epochDay n < 365 * 8030
  · have hfour : (printedFields n).year < 10000 := by omega
    rw [rfc3339Utc, formatEpochMs_toList hfour, readDateTime_stamp hfour (printedFields_fits n),
      Option.filter_some]
    by_cases hreal : (printedFields n).Real
    · rw [if_pos (decide_eq_true hreal)]
      exact iff_of_true rfl ⟨hlate, (printedFields_real_iff n).mp hreal⟩
    · rw [if_neg (by simpa using hreal)]
      exact iff_of_false Bool.false_ne_true
        fun h => hreal ((printedFields_real_iff n).mpr h.2)
  · have hfive : 10000 ≤ (printedFields n).year ∧ (printedFields n).year < 100000 := by omega
    rw [rfc3339Utc, formatEpochMs_toList_late hfive.1 hfive.2, readDateTime_late hfive.2]
    constructor
    · intro h
      cases h
    · exact fun h => absurd h.1 hlate

/-! ## The order -/

theorem cons_not_lt {c : Char} {x y : List Char} (h : ¬ y < x) : ¬ c :: y < c :: x :=
  fun hlt => h (List.cons_lt_cons_self.mp hlt)

/-- **Years of one width are in order.** -/
theorem stamp_not_lt {w m n : Nat} (hmn : m ≤ n) (hyear : (printedFields n).year < 10 ^ w) :
    ¬ stamp w (printedFields n) < stamp w (printedFields m) := by
  have hfits := printedFields_fits n
  have hsecs : m / 1000 ≤ n / 1000 := Nat.div_le_div_right hmn
  unfold stamp
  refine decimal_append_not_lt ?_ hyear fun hy => cons_not_lt ?_
  · dsimp only [printedFields]
    omega
  dsimp only [printedFields] at hy
  have hdays : m / 1000 / 86400 ≤ n / 1000 / 86400 := Nat.div_le_div_right hsecs
  refine decimal_append_not_lt ?_ hfits.month fun hmonth => cons_not_lt ?_
  · dsimp only [printedFields]
    omega
  dsimp only [printedFields] at hmonth
  refine decimal_append_not_lt ?_ hfits.day fun hday => cons_not_lt ?_
  · dsimp only [printedFields]
    omega
  dsimp only [printedFields] at hday
  -- the same day
  have hsame : m / 1000 / 86400 = n / 1000 / 86400 := by omega
  clear hy hmonth hday hdays
  refine decimal_append_not_lt ?_ hfits.hour fun hhour => cons_not_lt ?_
  · dsimp only [printedFields]
    omega
  dsimp only [printedFields] at hhour
  refine decimal_append_not_lt ?_ hfits.minute fun hminute => cons_not_lt ?_
  · dsimp only [printedFields]
    omega
  dsimp only [printedFields] at hminute
  refine decimal_append_not_lt ?_ hfits.second fun _ => List.lt_irrefl ['Z']
  dsimp only [printedFields]
  omega

/-- **The order of two timestamps.** Years of five digits come before those of four. The text is
ASCII, so its bytes are ordered as its characters are. -/
theorem formatEpochMs_le_iff {m n : Nat} (hmn : m ≤ n)
    (hyear : n < 86400000 * daysBefore 10000) :
    formatEpochMs m ≤ formatEpochMs n ↔
      epochDay n < 365 * 8030 ∨ 365 * 8030 ≤ epochDay m := by
  have hbound : n < 86400000 * 2932897 := hyear
  have hday := epochDay_natCast n
  have hday' := epochDay_natCast m
  have hprinted := printedFields_year n
  have hprinted' := printedFields_year m
  have hle : epochDay m ≤ epochDay n := by omega
  rw [← not_lt, String.lt_iff_toList_lt]
  by_cases hlate : epochDay n < 365 * 8030
  · have hfour : (printedFields n).year < 10000 := by omega
    have hfour' : (printedFields m).year < 10000 := by omega
    rw [formatEpochMs_toList hfour, formatEpochMs_toList hfour']
    exact iff_of_true (stamp_not_lt hmn hfour) (Or.inl hlate)
  · have hfive : 10000 ≤ (printedFields n).year ∧ (printedFields n).year < 100000 := by omega
    rw [formatEpochMs_toList_late hfive.1 hfive.2]
    by_cases hlate' : epochDay m < 365 * 8030
    · have hfour' : (printedFields m).year < 10000 := by omega
      rw [formatEpochMs_toList hfour']
      have hlt : stamp 5 (printedFields n) < stamp 4 (printedFields m) := by
        unfold stamp
        rw [decimal_succ, List.append_assoc]
        apply decimal_append_lt _ hfour'
        omega
      refine iff_of_false (not_not.mpr hlt) ?_
      rintro (h | h)
      · exact hlate h
      · omega
    · have hfive' : 10000 ≤ (printedFields m).year ∧ (printedFields m).year < 100000 := by omega
      rw [formatEpochMs_toList_late hfive'.1 hfive'.2]
      exact iff_of_true (stamp_not_lt hmn hfive.2) (Or.inr (by omega))

/-- **When a timestamp is a date**, and when two are in order, for the milliseconds of the years 1970
to 9999. -/
theorem formatEpochMs_iff {ms₁ ms₂ : Int} (hpos : 0 ≤ ms₁) (hle : ms₁ ≤ ms₂)
    (hyear : ms₂ < 86400000 * daysBefore 10000) :
    ((rfc3339Utc (formatEpochMs ms₁)).isSome = true ↔ OnRealDay ms₁) ∧
    ((rfc3339Utc (formatEpochMs ms₂)).isSome = true ↔ OnRealDay ms₂) ∧
    (formatEpochMs ms₁ ≤ formatEpochMs ms₂ ↔
      epochDay ms₂ < 365 * 8030 ∨ 365 * 8030 ≤ epochDay ms₁) := by
  obtain ⟨m, rfl⟩ := Int.eq_ofNat_of_zero_le hpos
  obtain ⟨n, rfl⟩ := Int.eq_ofNat_of_zero_le (le_trans hpos hle)
  have hmn : m ≤ n := by omega
  have hn : n < 86400000 * daysBefore 10000 := by omega
  exact ⟨rfc3339Utc_formatEpochMs (lt_of_le_of_lt hmn hn), rfc3339Utc_formatEpochMs hn,
    formatEpochMs_le_iff hmn hn⟩

/-- Two instants whose days are printed as the first of a month. -/
theorem first_days :
    (rfc3339Utc (formatEpochMs 1700000000000)).isSome = true ∧
      formatEpochMs 0 ≤ formatEpochMs 1700000000000 := by
  obtain ⟨-, hreal, horder⟩ :=
    @formatEpochMs_iff 0 1700000000000 (by decide) (by decide) (by decide)
  exact ⟨hreal.mpr (by decide), horder.mpr (by decide)⟩

/-- The 27th of December 1970 is printed as the first day of a month 13. -/
theorem thirteenth_month : ¬ ∀ ms₁ ms₂ : Int, 0 ≤ ms₁ → ms₁ ≤ ms₂ →
    ms₂ < 86400000 * daysBefore 10000 →
      (rfc3339Utc (formatEpochMs ms₁)).isSome = true ∧ formatEpochMs ms₁ ≤ formatEpochMs ms₂ := by
  intro h
  obtain ⟨hreal, -⟩ := h (31104000000 : Nat) (31104000000 : Nat) (by decide) (by decide) (by decide)
  exact absurd ((rfc3339Utc_formatEpochMs (by decide)).mp hreal) (by decide)

end McpGateway.Zoho
