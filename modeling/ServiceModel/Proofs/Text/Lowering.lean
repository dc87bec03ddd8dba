/-
Which characters a text in lower case may have for those of a text: the lower case of each, where a
sigma may have its form for the end of a word. What stands in lower case stays as it is when the
text is put in lower case again, wherever it stands.
-/
import ServiceModel.Proofs.Text.CaseMaps

namespace ServiceModel.Text

/-- The small sigma that ends words. -/
def finalSigma : Char := Char.ofNat 0x3c2

/-- The character `d` may stand in lower case for `c`. -/
inductive Lowers (c : Char) : Char → Prop where
  | plain {d : Char} (h : lowerChar c = [d]) : Lowers c d
  | final (h : c = sigma) : Lowers c finalSigma

theorem lowerChar_sigma : lowerChar sigma = [Char.ofNat 0x3c3] := by decide +kernel

theorem small_finalSigma : Small finalSigma := by
  refine ⟨?_, ?_, ?_⟩ <;> decide +kernel

theorem upperChar_sigmas :
    upperChar (Char.ofNat 0x3c3) = [sigma] ∧ upperChar finalSigma = [sigma] := by
  decide +kernel

theorem ne_dottedI_of_lowerChar {c d : Char} (h : lowerChar c = [d]) :
    c.toNat ≠ CaseTable.dottedI := by
  intro hc
  have two : (lowerChar c).length = 2 := by
    rw [lowerChar, hc]
    rfl
  rw [h] at two
  cases two

namespace Lowers

variable {c d : Char}

/-- What stands in lower case is the character itself or a small letter. -/
theorem same_or_small (h : Lowers c d) : d = c ∨ Small d := by
  cases h with
  | plain h =>
    obtain ⟨e, he, known⟩ := lowerChar_cases (ne_dottedI_of_lowerChar h)
    rw [h] at he
    cases he
    exact known
  | final h => exact .inr small_finalSigma

theorem ne_dottedI (h : Lowers c d) : c.toNat ≠ CaseTable.dottedI := by
  cases h with
  | plain h => exact ne_dottedI_of_lowerChar h
  | final h => subst h; decide

/-- What stands in lower case is its own lower case. -/
theorem settled (h : Lowers c d) : lowerChar d = [d] := by
  rcases h.same_or_small with rfl | small
  · cases h with
    | plain h => exact h
    | final h => exact small_finalSigma.lowerChar
  · exact small.lowerChar

/-- A character that is the upper case of its lower case is the upper case of what stands for it. -/
theorem upperChar (h : Lowers c d) (hc : uppercase (Text.lowerChar c) = [c]) :
    Text.upperChar d = [c] := by
  cases h with
  | plain h =>
    rw [h] at hc
    simpa [uppercase] using hc
  | final h =>
    subst h
    exact upperChar_sigmas.2

/-- Only a sigma has more than one lower case. -/
theorem unique {e : Char} (h : Lowers c d) (h' : Lowers c e) (hd : d.toNat < 128) : e = d := by
  cases h with
  | plain h =>
    cases h' with
    | plain h' =>
      rw [h] at h'
      cases h'
      rfl
    | final h' =>
      subst h'
      rw [lowerChar_sigma] at h
      cases h
      exact absurd hd (by decide)
  | final h => exact absurd hd (by decide)

theorem eq_lineFeed_iff (h : Lowers c d) : d = '\n' ↔ c = '\n' := by
  constructor
  · rintro rfl
    rcases h.same_or_small with same | small
    · exact same.symm
    · exact absurd small.isLowerChar (by decide)
  · rintro rfl
    exact (Lowers.plain rfl).unique h (by decide)

end Lowers

/-- Characters are put in lower case one by one. -/
theorem lowerAfter_cons {c : Char} (h : c.toNat ≠ CaseTable.dottedI) (before rest : List Char) :
    ∃ d, Lowers c d ∧ lowerAfter before (c :: rest) = d :: lowerAfter (c :: before) rest := by
  rw [lowerAfter]
  by_cases hs : c = sigma
  · rw [if_pos hs]
    by_cases last : (meetsLetter before && !meetsLetter rest) = true
    · exact ⟨_, .final hs, by rw [if_pos last]; rfl⟩
    · exact ⟨_, .plain (hs ▸ lowerChar_sigma), by rw [if_neg last]; rfl⟩
  · obtain ⟨d, hd, -⟩ := lowerChar_cases h
    exact ⟨d, .plain hd, by rw [if_neg hs, hd]; rfl⟩

theorem lowers_lowerAfter {text : List Char} (h : ∀ c ∈ text, c.toNat ≠ CaseTable.dottedI)
    (before : List Char) : List.Forall₂ Lowers text (lowerAfter before text) := by
  induction text generalizing before with
  | nil => exact .nil
  | cons c rest ih =>
    obtain ⟨hc, hr⟩ := List.forall_mem_cons.1 h
    obtain ⟨d, hd, he⟩ := lowerAfter_cons hc before rest
    rw [he]
    exact .cons hd (ih hr _)

theorem lowers_lowercase {text lowered : List Char} (h : List.Forall₂ Lowers text lowered) :
    List.Forall₂ Lowers text (lowercase text) := by
  refine lowers_lowerAfter (fun c hc => ?_) []
  obtain ⟨i, hi, rfl⟩ := List.getElem_of_mem hc
  exact (h.get hi (h.length_eq ▸ hi)).ne_dottedI

theorem lowerAfter_eq_nil {before text : List Char} : lowerAfter before text = [] ↔ text = [] := by
  cases text with
  | nil => exact iff_of_true rfl rfl
  | cons c rest =>
    refine iff_of_false (fun h => ?_) (List.cons_ne_nil _ _)
    rw [lowerAfter, List.append_eq_nil_iff] at h
    split at h
    · exact List.cons_ne_nil _ _ h.1
    · exact lowerChar_ne_nil c h.1

/-- A single character in lower case stands for a single one. -/
theorem lowers_of_lowercase {text : List Char} {d : Char} (h : lowercase text = [d]) :
    ∃ c, text = [c] ∧ Lowers c d := by
  cases text with
  | nil => cases h
  | cons c rest =>
    have plain : c.toNat ≠ CaseTable.dottedI := by
      intro dotted
      have ne : c ≠ sigma := by
        rintro rfl
        exact absurd dotted (by decide)
      rw [lowercase, lowerAfter, if_neg ne] at h
      rcases List.append_eq_singleton_iff.1 h with ⟨none, -⟩ | ⟨one, -⟩
      · exact lowerChar_ne_nil c none
      · exact ne_dottedI_of_lowerChar one dotted
    obtain ⟨d', hd, he⟩ := lowerAfter_cons plain [] rest
    rw [lowercase, he, List.cons.injEq] at h
    obtain ⟨rfl, none⟩ := h
    exact ⟨c, by rw [lowerAfter_eq_nil.1 none], hd⟩

/-- The upper case of a text in lower case is the text, if all its characters return. -/
theorem uppercase_of_lowers {text lowered : List Char} (h : List.Forall₂ Lowers text lowered)
    (hr : ∀ c ∈ text, uppercase (lowerChar c) = [c]) : uppercase lowered = text := by
  induction h with
  | nil => rfl
  | cons hc _ ih =>
    obtain ⟨first, others⟩ := List.forall_mem_cons.1 hr
    rw [uppercase, List.flatMap_cons, hc.upperChar first, ← uppercase, ih others]
    rfl

/-- A text in lower case stays as it is. -/
theorem lowerAfter_of_settled {text : List Char} (h : ∀ d ∈ text, lowerChar d = [d])
    (before : List Char) : lowerAfter before text = text := by
  induction text generalizing before with
  | nil => rfl
  | cons d rest ih =>
    obtain ⟨hd, hr⟩ := List.forall_mem_cons.1 h
    have ne : d ≠ sigma := by
      rintro rfl
      rw [lowerChar_sigma] at hd
      exact absurd hd (by decide)
    rw [lowerAfter, if_neg ne, hd, ih hr]
    rfl

/-! ## Capitals -/

/-- Every capital of a text, and every character without case, is the upper case of its lower
case. There are six capitals that are not: the dotted I, the sharp s, the signs for ohm, kelvin and
ångström, and the theta symbol. -/
def CapitalsReturn (text : List Char) : Prop :=
  ∀ c ∈ text, isUpperChar c = true ∨ isLowerChar c = false → uppercase (lowerChar c) = [c]

theorem CapitalsReturn.ne_dottedI {text : List Char} (h : CapitalsReturn text) {c : Char}
    (hc : c ∈ text) : c.toNat ≠ CaseTable.dottedI := by
  intro he
  have dotted : c = Char.ofNat CaseTable.dottedI := by rw [← he, Char.ofNat_toNat]
  subst dotted
  exact absurd (h _ hc (.inr (by decide +kernel))) (by decide +kernel)

theorem CapitalsReturn.lowers {text : List Char} (h : CapitalsReturn text) :
    List.Forall₂ Lowers text (lowercase text) :=
  lowers_lowerAfter (fun _ hc => h.ne_dottedI hc) []

/-- In the basic alphabet all capitals return. -/
theorem returns_of_lt {c : Char} (hc : c.toNat < 128) (hl : c.isLower = false) :
    uppercase (lowerChar c) = [c] := by
  rw [lowerChar_of_lt hc, uppercase, List.flatMap_singleton, upperChar_of_lt (toLower_lt hc),
    Char.toUpper_toLower_eq_toUpper, Char.toUpper_eq_of_not_isLower (by simp [hl])]

theorem isLowerChar_of_lt {c : Char} (h : c.toNat < 128) : isLowerChar c = c.isLower := by
  rw [isLowerChar, if_pos h]

theorem isUpperChar_of_lt {c : Char} (h : c.toNat < 128) : isUpperChar c = c.isUpper := by
  rw [isUpperChar, if_pos h]

theorem capitalsReturn_of_lt {text : List Char} (h : ∀ c ∈ text, c.toNat < 128) :
    CapitalsReturn text := by
  intro c hc hcase
  refine returns_of_lt (h c hc) ?_
  rw [isUpperChar_of_lt (h c hc), isLowerChar_of_lt (h c hc)] at hcase
  exact hcase.elim (fun hu => Bool.eq_false_iff.2 (Char.not_isLower_of_isUpper hu)) id

end ServiceModel.Text
