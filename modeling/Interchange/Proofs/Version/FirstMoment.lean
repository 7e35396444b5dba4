import Interchange.Version.Window
import Mathlib.Tactic.Common

/-!
# The first valid moment

`firstValidMoment` takes each window by itself for one of the past, one that is current, or one
to come, and answers with the earliest start of those to come. It never looks at the end of a
window that is to come, although nothing asks for it to be after the start. A window without any
moment can so be the one that opens next, and then the answer is a moment at which nothing is
valid (`not_isFirstValid`). The answer is right in all other cases and in no more
(`isFirstValid_firstValidMoment_iff`), and always if windows end after they start
(`isFirstValid_of_nonempty`).
-/

namespace Interchange

/-- **The first valid moment.** `r` is the first moment, from `t` on, at which something with
these windows is valid; without such a moment `r` is `t`. -/
structure IsFirstValid (windows : List Window) (t r : DateTime) : Prop where
  first : (∃ m, t ≤ m ∧ isValidAt windows m = true) →
    t ≤ r ∧ isValidAt windows r = true ∧ ∀ m, t ≤ m → m < r → isValidAt windows m = false
  never : (∀ m, t ≤ m → isValidAt windows m = false) → r = t

/-! ### Past, current, and to come -/

namespace Window

variable {w : Window} {t m start : DateTime}

/-- The window is to come: it has not ended at `t`, and opens at `start`, later than `t`. -/
structure Upcoming (w : Window) (t start : DateTime) : Prop where
  opens : w.opens = some start
  later : t < start
  notEnded : w.hasEnded t = false

private theorem Upcoming.start_unique {start' : DateTime} (h : w.Upcoming t start)
    (h' : w.Upcoming t start') : start = start' :=
  Option.some.inj (h.opens.symm.trans h'.opens)

theorem contains_eq_true_iff :
    w.contains m = true ↔ w.hasStarted m = true ∧ w.hasEnded m = false := by
  rw [contains, Bool.and_eq_true, Bool.not_eq_true']

/-- A window that has ended stays so. -/
private theorem hasEnded_mono (h : w.hasEnded t = true) (htm : t ≤ m) : w.hasEnded m = true := by
  rw [hasEnded] at h ⊢
  cases hcloses : w.closes with
  | none => simp [hcloses] at h
  | some closes =>
    simp only [hcloses, decide_eq_true_eq, DateTime.le_iff] at h htm ⊢
    omega

/-- A window that has neither ended nor started is to come. -/
private theorem exists_upcoming (hended : w.hasEnded t = false) (hnow : w.contains t = false) :
    ∃ start, w.Upcoming t start := by
  have hstarted : w.hasStarted t = false := by
    simpa [contains, hended] using hnow
  rw [hasStarted] at hstarted
  cases hopens : w.opens with
  | none => simp [hopens] at hstarted
  | some start =>
    simp only [hopens, decide_eq_false_iff_not, DateTime.le_iff] at hstarted
    exact ⟨start, hopens, Int.not_le.mp hstarted, hended⟩

/-- A window that is not current and holds a later moment is to come, and opens by then. -/
private theorem exists_upcoming_of_contains (hnow : w.contains t = false) (htm : t ≤ m)
    (hm : w.contains m = true) : ∃ start, w.Upcoming t start ∧ start ≤ m := by
  obtain ⟨hstarted, hended⟩ := contains_eq_true_iff.mp hm
  have hrunning : w.hasEnded t = false := by
    by_contra h
    rw [hasEnded_mono (Bool.not_eq_false _ ▸ h) htm] at hended
    cases hended
  obtain ⟨start, hstart⟩ := exists_upcoming hrunning hnow
  refine ⟨start, hstart, ?_⟩
  simpa [hasStarted, hstart.opens] using hstarted

/-- A window holds the moment at which it opens unless it has ended by then. -/
private theorem Upcoming.contains_start_iff (h : w.Upcoming t start) :
    w.contains start = true ↔ w.hasEnded start = false := by
  rw [contains_eq_true_iff, hasStarted, h.opens]
  simp [DateTime.le_iff]

/-- A window that does not end after it starts holds no moment. -/
private theorem contains_eq_false_of_le {closes : DateTime} (hopens : w.opens = some start)
    (hcloses : w.closes = some closes) (h : closes ≤ start) (m : DateTime) :
    w.contains m = false := by
  simp only [contains, hasStarted, hasEnded, hopens, hcloses, Bool.and_eq_false_iff,
    decide_eq_false_iff_not, Bool.not_eq_false', decide_eq_true_eq, DateTime.le_iff] at h ⊢
  omega

end Window

/-! ### The scan -/

section Scan

variable {ws windows : List Window} {w : Window} {t start : DateTime} {first : Option DateTime}

/-- The scan's memory: the earliest start of windows to come, if any of the windows is. -/
structure NextStart (windows : List Window) (t : DateTime) (first : Option DateTime) : Prop where
  start : ∀ f ∈ first, ∃ w ∈ windows, w.Upcoming t f
  least : ∀ w ∈ windows, ∀ start, w.Upcoming t start → ∃ f ∈ first, f ≤ start

/-- The earlier of two starts, the first of which may be missing. -/
def earlierStart (first : Option DateTime) (start : DateTime) : DateTime :=
  match first with
  | some f => if start < f then start else f
  | none => start

private theorem earlierStart_le_right (first : Option DateTime) (start : DateTime) :
    earlierStart first start ≤ start := by
  cases first with
  | none => exact Int.le_refl _
  | some f =>
    rw [earlierStart]
    split_ifs with h <;> simp only [DateTime.le_iff, DateTime.lt_iff] at * <;> omega

private theorem earlierStart_le_left {f : DateTime} (hf : f ∈ first) (start : DateTime) :
    earlierStart first start ≤ f := by
  obtain rfl := Option.mem_def.mp hf
  rw [earlierStart]
  split_ifs with h <;> simp only [DateTime.le_iff, DateTime.lt_iff] at * <;> omega

private theorem earlierStart_eq_or (first : Option DateTime) (start : DateTime) :
    earlierStart first start = start ∨ earlierStart first start ∈ first := by
  cases first with
  | none => exact .inl rfl
  | some f =>
    rw [earlierStart]
    split_ifs
    · exact .inl rfl
    · exact .inr rfl

/-- A window that has ended is never to come. -/
private theorem NextStart.concat_of_hasEnded (h : NextStart ws t first)
    (hended : w.hasEnded t = true) : NextStart (ws ++ [w]) t first where
  start f hf := by
    obtain ⟨w', hw', hstart⟩ := h.start f hf
    exact ⟨w', List.mem_append_left _ hw', hstart⟩
  least w' hw' s hs := by
    rcases List.mem_append.mp hw' with hw' | hw'
    · exact h.least w' hw' s hs
    · obtain rfl := List.mem_singleton.mp hw'
      rw [hs.notEnded] at hended
      cases hended

/-- One more window that is to open may bring the next start forward. -/
private theorem NextStart.concat_of_upcoming (h : NextStart ws t first) (hw : w.Upcoming t start) :
    NextStart (ws ++ [w]) t (some (earlierStart first start)) where
  start f hf := by
    obtain rfl := Option.some.inj hf
    rcases earlierStart_eq_or first start with heq | hmem
    · rw [heq]
      exact ⟨w, List.mem_concat_self, hw⟩
    · obtain ⟨w', hw', hstart⟩ := h.start _ hmem
      exact ⟨w', List.mem_append_left _ hw', hstart⟩
  least w' hw' s hs := by
    refine ⟨_, rfl, ?_⟩
    rcases List.mem_append.mp hw' with hw' | hw'
    · obtain ⟨f, hf, hle⟩ := h.least w' hw' s hs
      exact Int.le_trans (earlierStart_le_left hf start) hle
    · obtain rfl := List.mem_singleton.mp hw'
      obtain rfl := hw.start_unique hs
      exact earlierStart_le_right first start

/-- A window that has closed is passed over. -/
private theorem firstValidFrom_cons_of_hasEnded (h : w.hasEnded t = true) :
    firstValidFrom t first (w :: ws) = firstValidFrom t first ws := by
  rw [firstValidFrom, if_pos h]

/-- A window that is open ends the search with the moment itself. -/
private theorem firstValidFrom_cons_of_contains (h : w.contains t = true) :
    firstValidFrom t first (w :: ws) = t := by
  obtain ⟨hstarted, hended⟩ := Window.contains_eq_true_iff.mp h
  rw [firstValidFrom, hended, if_neg Bool.false_ne_true]
  rw [Window.hasStarted] at hstarted
  cases hopens : w.opens with
  | none => rfl
  | some opens =>
    simp only [hopens, decide_eq_true_eq] at hstarted
    exact if_neg (Int.not_lt.mpr hstarted)

/-- A window that is to open is remembered if none before it opens earlier. -/
private theorem firstValidFrom_cons_of_upcoming (h : w.Upcoming t start) :
    firstValidFrom t first (w :: ws) = firstValidFrom t (some (earlierStart first start)) ws := by
  rw [firstValidFrom, h.notEnded, if_neg Bool.false_ne_true]
  simp only [h.opens, if_pos h.later]
  cases first with
  | none => rfl
  | some f => simp only [earlierStart, apply_ite some]

/-- A current window settles the answer wherever it stands. -/
private theorem firstValidFrom_of_contains (h : ∃ w ∈ ws, w.contains t = true) :
    firstValidFrom t first ws = t := by
  induction ws generalizing first with
  | nil => simp at h
  | cons w ws ih =>
    cases hnow : w.contains t with
    | true => exact firstValidFrom_cons_of_contains hnow
    | false =>
      have hrest : ∃ w ∈ ws, w.contains t = true := by simpa [hnow] using h
      cases hended : w.hasEnded t with
      | true => rw [firstValidFrom_cons_of_hasEnded hended, ih hrest]
      | false =>
        obtain ⟨start, hstart⟩ := Window.exists_upcoming hended hnow
        rw [firstValidFrom_cons_of_upcoming hstart, ih hrest]

/-- Without a current window the scan goes through all windows and keeps their next start. -/
theorem exists_nextStart {done : List Window} (h : NextStart done t first)
    (hnow : ∀ w ∈ ws, w.contains t = false) :
    ∃ first', NextStart (done ++ ws) t first' ∧ firstValidFrom t first ws = first'.getD t := by
  induction ws generalizing done first with
  | nil => exact ⟨first, by rwa [List.append_nil], rfl⟩
  | cons w ws ih =>
    obtain ⟨hw, hrest⟩ := List.forall_mem_cons.mp hnow
    rw [← List.singleton_append, ← List.append_assoc]
    cases hended : w.hasEnded t with
    | true =>
      rw [List.singleton_append, firstValidFrom_cons_of_hasEnded hended]
      exact ih (h.concat_of_hasEnded hended) hrest
    | false =>
      obtain ⟨start, hstart⟩ := Window.exists_upcoming hended hw
      rw [List.singleton_append, firstValidFrom_cons_of_upcoming hstart]
      exact ih (h.concat_of_upcoming hstart) hrest

end Scan

/-! ### When the answer is right -/

section FirstValid

variable {windows : List Window} {t m r start : DateTime} {first : Option DateTime}

/-- Nothing is valid if there are windows and none is open. -/
theorem isValidAt_eq_false_iff :
    isValidAt windows t = false ↔ windows ≠ [] ∧ ∀ w ∈ windows, w.contains t = false := by
  cases windows <;> simp [isValidAt]

private theorem isValidAt_of_contains {w : Window} (hw : w ∈ windows) (h : w.contains t = true) :
    isValidAt windows t = true := by
  rw [isValidAt, List.any_eq_true.mpr ⟨w, hw, h⟩, Bool.or_true]

/-- The answer is `t` if something is valid then, and otherwise the next start, if there is one. -/
theorem firstValidMoment_cases (windows : List Window) (t : DateTime) :
    (isValidAt windows t = true ∧ firstValidMoment windows t = t) ∨
      (isValidAt windows t = false ∧
        ∃ first, NextStart windows t first ∧ firstValidMoment windows t = first.getD t) := by
  cases hvalid : isValidAt windows t with
  | true =>
    refine .inl ⟨rfl, ?_⟩
    cases windows with
    | nil => rfl
    | cons w ws =>
      refine firstValidFrom_of_contains ?_
      simpa [isValidAt] using hvalid
  | false =>
    refine .inr ⟨rfl, ?_⟩
    have hempty : NextStart [] t none := ⟨by simp, by simp⟩
    exact exists_nextStart hempty (isValidAt_eq_false_iff.mp hvalid).2

/-- Nothing is valid before the next start. -/
private theorem NextStart.le_of_isValidAt (h : NextStart windows t first)
    (hvalid : isValidAt windows t = false) (htm : t ≤ m) (hm : isValidAt windows m = true) :
    ∃ f ∈ first, f ≤ m := by
  obtain ⟨hne, hnow⟩ := isValidAt_eq_false_iff.mp hvalid
  have hany : ∃ w ∈ windows, w.contains m = true := by
    simpa [isValidAt, hne] using hm
  obtain ⟨w, hw, hcontains⟩ := hany
  obtain ⟨start, hstart, hle⟩ := Window.exists_upcoming_of_contains (hnow w hw) htm hcontains
  obtain ⟨f, hf, hfstart⟩ := h.least w hw start hstart
  exact ⟨f, hf, Int.le_trans hfstart hle⟩

/-- Something is valid at the next start exactly if one of the windows that open then has not
ended by then. -/
theorem NextStart.isValidAt_iff (h : NextStart windows t (some start))
    (hvalid : isValidAt windows t = false) :
    isValidAt windows start = true ↔
      ∃ w ∈ windows, w.Upcoming t start ∧ w.hasEnded start = false := by
  constructor
  · intro hstart
    obtain ⟨hne, hnow⟩ := isValidAt_eq_false_iff.mp hvalid
    have hany : ∃ w ∈ windows, w.contains start = true := by
      simpa [isValidAt, hne] using hstart
    obtain ⟨w, hw, hcontains⟩ := hany
    obtain ⟨_, _, hnext⟩ := h.start start rfl
    have hlater := hnext.later
    obtain ⟨s, hs, hle⟩ :=
      Window.exists_upcoming_of_contains (hnow w hw) (Int.le_of_lt hlater) hcontains
    -- the window opens by then, and none opens before
    obtain ⟨f, hf, hfs⟩ := h.least w hw s hs
    obtain rfl := Option.some.inj hf
    obtain rfl : s = start := DateTime.rank_injective (Int.le_antisymm hle hfs)
    exact ⟨w, hw, hs, hs.contains_start_iff.mp hcontains⟩
  · rintro ⟨w, hw, hs, hended⟩
    exact isValidAt_of_contains hw (hs.contains_start_iff.mpr hended)

theorem NextStart.unique {start' : DateTime} (h : NextStart windows t (some start))
    (h' : NextStart windows t (some start')) : start = start' := by
  obtain ⟨w, hw, hs⟩ := h.start start rfl
  obtain ⟨w', hw', hs'⟩ := h'.start start' rfl
  obtain ⟨f, hf, hle⟩ := h.least w' hw' start' hs'
  obtain ⟨f', hf', hle'⟩ := h'.least w hw start hs
  obtain rfl := Option.some.inj hf
  obtain rfl := Option.some.inj hf'
  exact DateTime.rank_injective (Int.le_antisymm hle hle')

private theorem isFirstValid_self (h : isValidAt windows t = true) : IsFirstValid windows t t where
  first _ := ⟨Int.le_refl _, h, fun _ htm hmt => absurd htm (Int.not_le.mpr hmt)⟩
  never _ := rfl

/-- If no window is to come, nothing will ever be valid. -/
private theorem NextStart.isFirstValid_of_none (h : NextStart windows t none)
    (hvalid : isValidAt windows t = false) : IsFirstValid windows t t where
  first := by
    rintro ⟨m, htm, hm⟩
    obtain ⟨f, hf, -⟩ := h.le_of_isValidAt hvalid htm hm
    cases hf
  never _ := rfl

/-- The next start is the first valid moment if it is valid at all. -/
private theorem NextStart.isFirstValid_iff (h : NextStart windows t (some start))
    (hvalid : isValidAt windows t = false) :
    IsFirstValid windows t start ↔ isValidAt windows start = true := by
  obtain ⟨_, _, hs⟩ := h.start start rfl
  constructor
  · -- if nothing is valid later, the first valid moment is `t`, which is before the start
    intro hfirst
    by_contra hstart
    by_cases hlater : ∃ m, t ≤ m ∧ isValidAt windows m = true
    · exact hstart (hfirst.first hlater).2.1
    · have hnever : ∀ m, t ≤ m → isValidAt windows m = false := fun m htm =>
        Bool.eq_false_iff.mpr fun hm => hlater ⟨m, htm, hm⟩
      have hlt := hs.later
      rw [hfirst.never hnever] at hlt
      exact Int.lt_irrefl _ hlt
  · intro hstart
    have hle := Int.le_of_lt hs.later
    refine ⟨fun _ => ⟨hle, hstart, fun m htm hlt => Bool.eq_false_iff.mpr fun hm => ?_⟩,
      fun hnever => ?_⟩
    · -- nothing is valid before the next start
      obtain ⟨f, hf, hfm⟩ := h.le_of_isValidAt hvalid htm hm
      obtain rfl := Option.some.inj hf
      exact Int.not_le.mpr hlt hfm
    · rw [hnever start hle] at hstart
      cases hstart

/-- **First valid moments.** The answer is right exactly if, whenever nothing is valid yet and
there is a next start, one of the windows that open at the next start ends after it. -/
theorem isFirstValid_firstValidMoment_iff (windows : List Window) (t : DateTime) :
    IsFirstValid windows t (firstValidMoment windows t) ↔
      ∀ start, isValidAt windows t = false → NextStart windows t (some start) →
        ∃ w ∈ windows, w.Upcoming t start ∧ w.hasEnded start = false := by
  rcases firstValidMoment_cases windows t with ⟨hvalid, heq⟩ | ⟨hvalid, first, hnext, heq⟩
  · rw [heq]
    refine ⟨fun _ start hinvalid => ?_, fun _ => isFirstValid_self hvalid⟩
    rw [hvalid] at hinvalid
    cases hinvalid
  rw [heq]
  cases first with
  | none =>
    refine ⟨fun _ start _ hstart => ?_, fun _ => hnext.isFirstValid_of_none hvalid⟩
    obtain ⟨w, hw, hs⟩ := hstart.start start rfl
    obtain ⟨f, hf, -⟩ := hnext.least w hw start hs
    cases hf
  | some f =>
    rw [Option.getD_some, hnext.isFirstValid_iff hvalid, hnext.isValidAt_iff hvalid]
    constructor
    · intro h start _ hstart
      rwa [hstart.unique hnext]
    · exact fun h => h f hvalid hnext

/-- The answer is right for windows that end after they start. -/
theorem isFirstValid_of_nonempty (windows : List Window) (t : DateTime)
    (h : ∀ w ∈ windows, ∀ start ∈ w.opens, w.hasEnded start = false) :
    IsFirstValid windows t (firstValidMoment windows t) := by
  refine (isFirstValid_firstValidMoment_iff windows t).mpr fun start _ hnext => ?_
  obtain ⟨w, hw, hs⟩ := hnext.start start rfl
  exact ⟨w, hw, hs, h w hw start hs.opens⟩

/-! ### When it is not -/

/-- Midnight of a day in May 2024. -/
def dayOfMay (day : Nat) (h : 1 ≤ day ∧ day ≤ 31) : DateTime where
  year := 2024
  month := 5
  day
  hour := 0
  minute := 0
  second := 0
  nanosecond := 0
  year_mem := by decide
  day_mem := h
  time_mem := by decide

/-- A window that ends before it starts. -/
def invertedWindow : Window := ⟨some (dayOfMay 20 (by decide)), some (dayOfMay 15 (by decide))⟩

/-- A window without a moment is never valid, and yet its start is the answer: where nothing is
ever valid, and where a later window is. -/
theorem not_isFirstValid :
    (¬ IsFirstValid [invertedWindow] (dayOfMay 10 (by decide))
      (firstValidMoment [invertedWindow] (dayOfMay 10 (by decide)))) ∧
    ¬ IsFirstValid [invertedWindow, ⟨some (dayOfMay 25 (by decide)), none⟩]
      (dayOfMay 10 (by decide))
      (firstValidMoment [invertedWindow, ⟨some (dayOfMay 25 (by decide)), none⟩]
        (dayOfMay 10 (by decide))) := by
  constructor
  · intro h
    have hnever : ∀ m, isValidAt [invertedWindow] m = false := by
      intro m
      have hm := Window.contains_eq_false_of_le (w := invertedWindow) rfl rfl (by decide) m
      exact isValidAt_eq_false_iff.mpr ⟨by simp, List.forall_mem_singleton.mpr hm⟩
    have heq := h.never fun m _ => hnever m
    revert heq
    decide
  · intro h
    have hvalid := (h.first ⟨dayOfMay 25 (by decide), by decide, by decide⟩).2.1
    revert hvalid
    decide

end FirstValid

end Interchange
