namespace DocMarkup

abbrev CodeRanges := List (Nat × Nat)

def CodeRanges.holds (ranges : CodeRanges) (c : Char) : Bool :=
  ranges.any fun r => r.1 ≤ c.toNat && c.toNat ≤ r.2

theorem CodeRanges.holds_iff {ranges : CodeRanges} {c : Char} :
    ranges.holds c = true ↔ ∃ r ∈ ranges, r.1 ≤ c.toNat ∧ c.toNat ≤ r.2 := by
  simp [holds]

def CodeRanges.codes (ranges : CodeRanges) : List Nat :=
  ranges.flatMap fun r => List.range' r.1 (r.2 + 1 - r.1)

theorem CodeRanges.mem_codes {ranges : CodeRanges} {c : Char} (h : ranges.holds c = true) :
    c.toNat ∈ ranges.codes := by
  obtain ⟨r, member, low, high⟩ := CodeRanges.holds_iff.mp h
  exact List.mem_flatMap.mpr ⟨r, member, List.mem_range'_1.mpr ⟨low, by omega⟩⟩

end DocMarkup
