import TableSchema.Text.Case

/-! # Lower case

A text in lower case stays as it is when it is put in lower case again: no character that a run
leads to is in a run itself.
-/

namespace TableSchema.Text

theorem toNat_ofNat_cases (code : Nat) :
    (Char.ofNat code).toNat = code ∨ (Char.ofNat code).toNat = 0 := by
  by_cases valid : code.isValidChar
  · left
    have made : Char.ofNat code = Char.ofNatAux code valid := dif_pos valid
    rw [made]
    rfl
  · right
    have made : Char.ofNat code = _ := dif_neg valid
    rw [made]
    rfl

/-! ## Runs -/

namespace CaseRun

def image (run : CaseRun) : CharRange where
  first := (Int.ofNat run.range.first + run.distance).toNat
  last := (Int.ofNat run.range.last + run.distance).toNat

def separate (run other : CaseRun) : Bool :=
  Nat.blt run.image.last other.range.first || Nat.blt other.range.last run.image.first ||
    Nat.blt 0 run.image.first && Nat.beq other.stride 2 &&
      (Nat.beq run.stride 2 || Nat.beq run.range.first run.range.last) &&
      Nat.beq ((run.image.first + other.range.first) % 2) 1

theorem otherCase?_eq_some {run : CaseRun} {character made : Char}
    (found : run.otherCase? character = some made) :
    (run.range.first ≤ character.toNat ∧ character.toNat ≤ run.range.last) ∧
      (character.toNat - run.range.first) % run.stride = 0 ∧
      (made.toNat = (Int.ofNat character.toNat + run.distance).toNat ∨ made.toNat = 0) := by
  unfold otherCase? at found
  split at found
  · rename_i inside
    cases found
    simp only [CharRange.contains, Bool.and_eq_true, decide_eq_true_eq, beq_iff_eq] at inside
    exact ⟨inside.1, inside.2, toNat_ofNat_cases _⟩
  · cases found

theorem otherCase?_eq_none_of_separate {run other : CaseRun} (apart : run.separate other = true)
    {character made : Char} (found : run.otherCase? character = some made)
    (visible : made.toNat ≠ 0) : other.otherCase? made = none := by
  obtain ⟨bounds, stride, place | zero⟩ := otherCase?_eq_some found
  · cases again : other.otherCase? made with
    | none => rfl
    | some _ =>
        obtain ⟨within, even, -⟩ := otherCase?_eq_some again
        simp only [separate, image, Bool.or_eq_true, Bool.and_eq_true, Nat.blt_eq,
          Nat.beq_eq, Int.ofNat_eq_natCast] at apart
        rw [Int.ofNat_eq_natCast] at place
        rcases apart with (before | behind) | ⟨⟨⟨positive, two⟩, steps⟩, odd⟩
        · omega
        · omega
        · rw [two] at even
          rcases steps with steps | single
          · rw [steps] at stride
            omega
          · omega
  · exact absurd zero visible

end CaseRun

/-- The dotted capital I and the capital sigma are lowered apart from the runs. -/
def specialRuns : List CaseRun := [⟨⟨0x130, 0x130⟩, 1, 0⟩, ⟨⟨0x3A3, 0x3A3⟩, 1, 0⟩]

theorem separate_lowerRuns : (lowerRuns.all fun run =>
    (specialRuns ++ lowerRuns).all run.separate) = true := by
  decide +kernel

theorem image_lowerRuns : (lowerRuns.all fun run =>
    Nat.ble 0x80 run.image.first || run.image == ⟨0x6B, 0x6B⟩) = true := by
  decide +kernel

theorem made_of_ascii {run : CaseRun} (listed : run ∈ lowerRuns) {character made : Char}
    (found : run.otherCase? character = some made) (visible : made.toNat ≠ 0)
    (ascii : made.val < 0x80) : made = 'k' := by
  have ascii : made.toNat < 0x80 := ascii
  have image := List.all_eq_true.mp image_lowerRuns run listed
  obtain ⟨bounds, -, place | zero⟩ := CaseRun.otherCase?_eq_some found
  · rw [Bool.or_eq_true, Nat.ble_eq, beq_iff_eq] at image
    rcases image with late | kelvin
    · simp only [CaseRun.image, Int.ofNat_eq_natCast] at late place
      omega
    · have first := congrArg CharRange.first kelvin
      have last := congrArg CharRange.last kelvin
      simp only [CaseRun.image, Int.ofNat_eq_natCast] at first last place
      have letter : made.toNat = 0x6B := by omega
      rw [← Char.ofNat_toNat made, letter]
  · exact absurd zero visible

/-! ## Settled characters -/

/-- Whether a character stays as it is in lower case, wherever it stands. -/
def Settled (character : Char) : Prop := character ≠ 'Σ' ∧ lowerChar character = [character]

theorem settled_of_run {run : CaseRun} (listed : run ∈ lowerRuns) {character made : Char}
    (found : run.otherCase? character = some made) : Settled made := by
  have apart := List.all_eq_true.mp (List.all_eq_true.mp separate_lowerRuns run listed)
  by_cases visible : made.toNat = 0
  · -- A number that is no character's would make the character zero.
    rw [← Char.ofNat_toNat made, visible]
    exact ⟨by decide, by decide⟩
  · have outside {other : CaseRun} (known : other ∈ specialRuns ++ lowerRuns) :
        other.otherCase? made = none :=
      CaseRun.otherCase?_eq_none_of_separate (apart other known) found visible
    have dotted : made ≠ 'İ' := by
      rintro rfl
      exact absurd (outside (List.mem_append_left _ (.head _))) (by decide)
    have sigma : made ≠ 'Σ' := by
      rintro rfl
      exact absurd (outside (List.mem_append_left _ (.tail _ (.head _)))) (by decide)
    have alone : lowerRuns.findSome? (·.otherCase? made) = none :=
      List.findSome?_eq_none_iff.mpr fun other known => outside (List.mem_append_right _ known)
    refine ⟨sigma, ?_⟩
    unfold lowerChar
    split
    · rename_i ascii
      rw [made_of_ascii listed found visible ascii]
      rfl
    · rw [alone]
      rfl

theorem settled_of_mem_lowerChar {character made : Char} (other : character ≠ 'Σ')
    (member : made ∈ lowerChar character) : Settled made := by
  unfold lowerChar at member
  split at member
  · rename_i ascii
    have all : ∀ code ∈ List.range 0x80, (Char.ofNat code).toLower ≠ 'Σ' ∧
        lowerChar (Char.ofNat code).toLower = [(Char.ofNat code).toLower] := by
      decide +kernel
    have here := all character.toNat (List.mem_range.mpr ascii)
    rw [Char.ofNat_toNat] at here
    rw [List.mem_singleton.mp member]
    exact here
  · rename_i late
    split at member
    · simp only [List.mem_cons, List.not_mem_nil, or_false] at member
      rcases member with rfl | rfl
      · exact ⟨by decide, by decide⟩
      · exact ⟨by decide, by decide +kernel⟩
    · rename_i plain
      rw [List.mem_singleton.mp member]
      cases found : lowerRuns.findSome? (·.otherCase? character) with
      | none =>
          refine ⟨other, ?_⟩
          rw [Option.getD_none, lowerChar, if_neg late, if_neg plain, found]
          rfl
      | some other =>
          obtain ⟨run, listed, led⟩ := List.exists_of_findSome?_eq_some found
          exact settled_of_run listed led

theorem settled_of_mem_lowerAfter {before text : List Char} {made : Char}
    (member : made ∈ lowerAfter before text) : Settled made := by
  induction text generalizing before with
  | nil => cases member
  | cons character rest induction =>
      rw [lowerAfter, List.mem_append] at member
      rcases member with here | later
      · split at here
        · split at here
          · rw [List.mem_singleton.mp here]
            exact ⟨by decide, by decide +kernel⟩
          · rw [List.mem_singleton.mp here]
            exact ⟨by decide, by decide +kernel⟩
        · rename_i other
          exact settled_of_mem_lowerChar other here
      · exact induction later

theorem lowerAfter_of_settled {before text : List Char}
    (settled : ∀ character ∈ text, Settled character) : lowerAfter before text = text := by
  induction text generalizing before with
  | nil => rfl
  | cons character rest induction =>
      have here := settled character (by simp)
      rw [lowerAfter, if_neg here.1, here.2, List.singleton_append,
        induction fun later member => settled later (by simp [member])]

/-- Lower case changes nothing in lower case. -/
theorem lower_lower (text : List Char) : lower (lower text) = lower text :=
  lowerAfter_of_settled fun _ => settled_of_mem_lowerAfter

end TableSchema.Text
