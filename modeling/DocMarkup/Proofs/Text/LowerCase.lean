import DocMarkup.Text.LowerCase

namespace DocMarkup

namespace CaseRun

def lowest (run : CaseRun) : Nat := (run.first + run.shift).toNat

def highest (run : CaseRun) : Nat := (run.last + run.shift).toNat

theorem bounds_of_mem {run : CaseRun} (member : run ∈ wideCaseRuns) :
    0 < run.first + run.shift ∧ (run.highest < 0x41 ∨ 0x5A < run.lowest) ∧
      (run.highest < 0x130 ∨ 0x130 < run.lowest) := by
  have table : ∀ run ∈ wideCaseRuns, 0 < run.first + run.shift ∧
      (run.highest < 0x41 ∨ 0x5A < run.lowest) ∧ (run.highest < 0x130 ∨ 0x130 < run.lowest) := by
    decide +kernel
  exact table run member

theorem lower?_table : (wideCaseRuns.findSome? (·.lower? 'Σ'.toNat)).isSome = true ∧
    ∀ run ∈ wideCaseRuns, run.lower? 'σ'.toNat = none ∧ run.lower? 'ς'.toNat = none ∧
      run.lower? '\u0307'.toNat = none := by
  decide +kernel

def clears (run other : CaseRun) : Bool :=
  Nat.blt run.highest other.first || Nat.blt other.last run.lowest ||
    ((run.lowest + other.first) % 2 == 1 && other.step == 2 &&
      (run.step == 2 || run.first == run.last))

theorem clears_of_mem {run other : CaseRun} (member : run ∈ wideCaseRuns)
    (member' : other ∈ wideCaseRuns) : run.clears other = true := by
  have table : (wideCaseRuns.all fun run => wideCaseRuns.all run.clears) = true := by
    decide +kernel
  exact List.all_eq_true.mp (List.all_eq_true.mp table run member) other member'

variable {run : CaseRun} {code lowered : Nat}

theorem lower?_range (member : run ∈ wideCaseRuns) (h : run.lower? code = some lowered) :
    run.first ≤ code ∧ code ≤ run.last ∧ (code - run.first) % run.step = 0 ∧
      run.lowest + (code - run.first) = lowered ∧ lowered + (run.last - code) = run.highest := by
  obtain ⟨positive, -, -⟩ := bounds_of_mem member
  simp only [lower?, Option.ite_none_right_eq_some, Option.some.injEq] at h
  obtain ⟨⟨first, last, even⟩, rfl⟩ := h
  unfold lowest highest
  refine ⟨first, last, even, ?_, ?_⟩ <;> omega

theorem lower?_lower? {other : CaseRun} (member : run ∈ wideCaseRuns)
    (member' : other ∈ wideCaseRuns) (h : run.lower? code = some lowered) :
    other.lower? lowered = none := by
  obtain ⟨first, last, even, low, high⟩ := lower?_range member h
  have apart := clears_of_mem member member'
  simp only [clears, Bool.or_eq_true, Bool.and_eq_true, beq_iff_eq, Nat.blt_eq] at apart
  apply if_neg
  rintro ⟨first', last', even'⟩
  rcases apart with (below | above) | ⟨⟨odd, step'⟩, step | single⟩
  · omega
  · omega
  · rw [step] at even
    rw [step'] at even'
    omega
  · rw [step'] at even'
    omega

theorem lower?_bounds (member : run ∈ wideCaseRuns) (h : run.lower? code = some lowered) :
    ¬ (0x41 ≤ lowered ∧ lowered ≤ 0x5A) ∧ lowered ≠ 0x130 := by
  obtain ⟨-, -, -, low, high⟩ := lower?_range member h
  obtain ⟨-, capital, dotted⟩ := bounds_of_mem member
  omega

end CaseRun

/-- The character is its own lower case, and no capital sigma. -/
def IsSmall (c : Char) : Prop := lowerChar c = [c] ∧ c ≠ 'Σ'

theorem isSmall_of_ascii {c : Char} (ascii : c.toNat < 0x80)
    (small : ¬ (0x41 ≤ c.toNat ∧ c.toNat ≤ 0x5A)) : IsSmall c := by
  have noCapital : ¬ ('A' ≤ c ∧ c ≤ 'Z') := small
  constructor
  · simp [lowerChar, noCapital, ascii]
  · rintro rfl
    exact absurd ascii (by decide)

theorem isSmall_of_wide {c : Char} (small : ¬ (0x41 ≤ c.toNat ∧ c.toNat ≤ 0x5A))
    (dotted : c ≠ '\u0130') (apart : ∀ run ∈ wideCaseRuns, run.lower? c.toNat = none) :
    IsSmall c := by
  have noCapital : ¬ ('A' ≤ c ∧ c ≤ 'Z') := small
  have none : wideCaseRuns.findSome? (·.lower? c.toNat) = none :=
    List.findSome?_eq_none_iff.mpr apart
  constructor
  · simp [lowerChar, noCapital, dotted, none]
  · rintro rfl
    have found := CaseRun.lower?_table.1
    rw [none] at found
    cases found

theorem isSmall_of_lower? {run : CaseRun} {code lowered : Nat} (member : run ∈ wideCaseRuns)
    (h : run.lower? code = some lowered) : IsSmall (Char.ofNat lowered) := by
  obtain ⟨capital, dotted⟩ := CaseRun.lower?_bounds member h
  rcases toNat_ofNat_cases lowered with same | zero
  · apply isSmall_of_wide
    · rwa [same]
    · intro eq
      apply dotted
      rw [← same, eq]
      rfl
    · rw [same]
      exact fun other member' => CaseRun.lower?_lower? member member' h
  · exact isSmall_of_ascii (by omega) (by omega)

theorem isSmall_of_mem_lowerChar {c d : Char} (h : d ∈ lowerChar c) : IsSmall d := by
  unfold lowerChar at h
  split at h
  · rename_i capital
    simp only [Bool.and_eq_true, decide_eq_true_eq] at capital
    have codes : ∀ code ∈ List.range' 0x41 26,
        0x60 < (Char.ofNat (code + 32)).toNat ∧ (Char.ofNat (code + 32)).toNat < 0x80 := by
      decide
    have low : 0x41 ≤ c.toNat := capital.1
    have high : c.toNat ≤ 0x5A := capital.2
    have small := codes c.toNat (List.mem_range'_1.mpr ⟨low, by omega⟩)
    rw [List.mem_singleton.mp h]
    exact isSmall_of_ascii small.2 (by omega)
  · rename_i noCapital
    simp only [Bool.and_eq_true, decide_eq_true_eq] at noCapital
    have small : ¬ (0x41 ≤ c.toNat ∧ c.toNat ≤ 0x5A) := noCapital
    split at h
    · rename_i ascii
      rw [List.mem_singleton.mp h]
      exact isSmall_of_ascii ascii small
    · split at h
      · rcases List.mem_cons.mp h with rfl | h
        · exact isSmall_of_ascii (by decide) (by decide)
        · rw [List.mem_singleton.mp h]
          exact isSmall_of_wide (by decide) (by decide) fun run member =>
            (CaseRun.lower?_table.2 run member).2.2
      · rename_i dotted
        split at h
        · rename_i found
          obtain ⟨run, member, lowered⟩ := List.exists_of_findSome?_eq_some found
          rw [List.mem_singleton.mp h]
          exact isSmall_of_lower? member lowered
        · rename_i none
          rw [List.mem_singleton.mp h]
          exact isSmall_of_wide small (by simpa using dotted) (List.findSome?_eq_none_iff.mp none)

theorem isSmall_lowerSigma (before after : List Char) : IsSmall (lowerSigma before after) := by
  unfold lowerSigma
  split
  · exact isSmall_of_wide (by decide) (by decide) fun run member =>
      (CaseRun.lower?_table.2 run member).2.1
  · exact isSmall_of_wide (by decide) (by decide) fun run member =>
      (CaseRun.lower?_table.2 run member).1

theorem isSmall_of_mem_lowerAfter {before text : List Char} :
    ∀ c ∈ lowerAfter before text, IsSmall c := by
  induction text generalizing before with
  | nil => simp [lowerAfter]
  | cons c rest ih =>
    intro d member
    rw [lowerAfter] at member
    rcases List.mem_append.mp member with first | later
    · split at first
      · rw [List.mem_singleton.mp first]
        exact isSmall_lowerSigma before rest
      · exact isSmall_of_mem_lowerChar first
    · exact ih d later

theorem lowerAfter_of_small {text : List Char} (small : ∀ c ∈ text, IsSmall c)
    (before : List Char) : lowerAfter before text = text := by
  induction text generalizing before with
  | nil => rfl
  | cons c rest ih =>
    obtain ⟨same, noSigma⟩ := small c List.mem_cons_self
    rw [lowerAfter, ih (fun d member => small d (List.mem_cons_of_mem c member))]
    simp [noSigma, same]

theorem meetsCased_append_colon (after : List Char) :
    meetsCased (after ++ [':']) = meetsCased after := by
  have ignorable : isCaseIgnorable ':' = true := by decide
  unfold meetsCased
  rw [List.dropWhile_append]
  cases rest : after.dropWhile isCaseIgnorable with
  | nil => simp [ignorable]
  | cons c rest => simp

theorem lowerAfter_append_colon (before text : List Char) :
    lowerAfter before (text ++ [':']) = lowerAfter before text ++ [':'] := by
  induction text generalizing before with
  | nil =>
    have colon : ∀ c ∈ [':'], IsSmall c := by
      rintro c (_ | ⟨_, ⟨⟩⟩)
      exact isSmall_of_ascii (by decide) (by decide)
    exact lowerAfter_of_small colon before
  | cons c rest ih =>
    rw [List.cons_append, lowerAfter, ih, lowerAfter, lowerSigma, meetsCased_append_colon,
      List.append_assoc]
    rfl

namespace Text

theorem lowerCase_lowerCase (text : Text) : text.lowerCase.lowerCase = text.lowerCase :=
  lowerAfter_of_small isSmall_of_mem_lowerAfter []

theorem lowerCase_append_colon (text : Text) :
    lowerCase (text ++ [':']) = text.lowerCase ++ [':'] :=
  lowerAfter_append_colon [] text

theorem lowerCase_eq_nil_iff {text : Text} : text.lowerCase = [] ↔ text = [] := by
  constructor
  · intro empty
    cases text with
    | nil => rfl
    | cons c rest =>
      rw [lowerCase, lowerAfter, List.append_eq_nil_iff] at empty
      obtain ⟨first, -⟩ := empty
      split at first
      · contradiction
      · by_cases blank : isBlank c = true
        · rw [lowerChar_of_isBlank blank] at first
          contradiction
        · obtain ⟨d, more, eq, -⟩ := lowerChar_of_not_isBlank (Bool.eq_false_iff.mpr blank)
          rw [eq] at first
          contradiction
  · rintro rfl
    rfl

end Text

end DocMarkup
