/-
What the tables of the case of letters have in common: the lower case of a letter is the letter
itself or a small letter, and what stands in lower case stays as it is. The tables are lists of
runs, and the facts are checked run by run: a run of images lies within a run of small letters and
apart from every run of letters that have a lower case of their own.
-/
import ServiceModel.Proofs.Text.Case

namespace ServiceModel.Text

namespace CaseTable

/-! ## Runs -/

/-- A number from `first` to `last` in steps of `step`. -/
def InRun (first last step n : Nat) : Prop := first ≤ n ∧ n ≤ last ∧ (n - first) % step = 0

/-- No number of the run from `first` to `last` is in the run `other`: one ends before the other
starts, or both go in steps of two and have no parity in common. -/
def apart (first last step : Nat) (other : Nat × Nat × Nat × Nat) : Bool :=
  Nat.blt last other.1 || Nat.blt other.2.1 first ||
    ((Nat.beq step 2 || Nat.beq first last) && Nat.beq other.2.2.1 2 &&
      Nat.beq ((first + other.1) % 2) 1)

/-- All numbers of the run from `first` to `last` are in the run `other`. -/
def within (first last step : Nat) (other : Nat × Nat × Nat) : Bool :=
  Nat.ble other.1 first && Nat.ble last other.2.1 &&
    (Nat.beq other.2.2 1 ||
      (Nat.beq step 2 || Nat.beq first last) && Nat.beq other.2.2 2 &&
        Nat.beq ((first + other.1) % 2) 0)

theorem not_inRun_of_apart {first last step n : Nat} {other : Nat × Nat × Nat × Nat}
    (h : apart first last step other = true) (hn : InRun first last step n) :
    ¬InRun other.1 other.2.1 other.2.2.1 n := by
  obtain ⟨hf, hl, hs⟩ := hn
  rintro ⟨hf', hl', hs'⟩
  simp only [apart, Bool.or_eq_true, Bool.and_eq_true, Nat.blt_eq, Nat.beq_eq] at h
  rcases h with (h | h) | ⟨⟨h | h, two⟩, odd⟩
  · omega
  · omega
  · rw [h] at hs; rw [two] at hs'; omega
  · rw [two] at hs'; omega

theorem inRun_of_within {first last step n : Nat} {other : Nat × Nat × Nat}
    (h : within first last step other = true) (hn : InRun first last step n) :
    InRun other.1 other.2.1 other.2.2 n := by
  obtain ⟨hf, hl, hs⟩ := hn
  simp only [within, Bool.or_eq_true, Bool.and_eq_true, Nat.ble_eq, Nat.beq_eq] at h
  obtain ⟨⟨hf', hl'⟩, h⟩ := h
  refine ⟨by omega, by omega, ?_⟩
  rcases h with one | ⟨⟨h | h, two⟩, even⟩
  · rw [one, Nat.mod_one]
  · rw [h] at hs; rw [two]; omega
  · rw [two]; omega

/-! ## The table of lower case -/

/-- The dotted capital I, the only letter whose lower case is more than one character. -/
def dottedI : Nat := 0x130

/-- The dotless i and the long s, which count as an i and an s in patterns. -/
def likeLetters : List Nat := [0x131, 0x17f]

/-- The images of a run are characters, are small letters, are no letters with a lower case of
their own, and are not among those that count as other letters. Of the basic alphabet they are the
small letters for its capitals, and the k for the kelvin sign. -/
def settles (run : Nat × Nat × Nat × Nat) : Bool :=
  let first := run.2.2.2
  let last := first + (run.2.1 - run.1)
  let step := run.2.2.1
  (Nat.blt run.2.1 128 || Nat.ble 128 first || (Nat.beq first 0x6b && Nat.beq last 0x6b)) &&
    (Nat.blt last 0xd800 || (Nat.ble 0xe000 first && Nat.blt last 0x110000)) &&
    ((dottedI :: likeLetters).all fun n => apart first last step (n, n, 1, n)) &&
    toLower.all (apart first last step) && lower.any (within first last step)

theorem toLower_settles : toLower.all settles = true := by decide +kernel

theorem lookup_toLowerSeveral {n : Nat} (h : n ≠ dottedI) : toLowerSeveral.lookup n = none := by
  have other : (n == 0x130) = false := beq_eq_false_iff_ne.2 h
  simp [toLowerSeveral, List.lookup, other]

theorem image_eq {n : Nat} (h : n ≠ dottedI) :
    image toLower toLowerSeveral n = [Char.ofNat n] ∨
      ∃ run ∈ toLower, InRun run.1 run.2.1 run.2.2.1 n ∧
        image toLower toLowerSeveral n = [Char.ofNat (n + run.2.2.2 - run.1)] := by
  rw [image, lookup_toLowerSeveral h]
  dsimp only
  generalize hf : List.find? _ toLower = run?
  cases run? with
  | none => exact .inl rfl
  | some run =>
    refine .inr ⟨run, List.mem_of_find?_eq_some hf, ?_, rfl⟩
    have found := List.find?_some hf
    simp only [Bool.and_eq_true, decide_eq_true_eq, beq_iff_eq] at found
    exact ⟨found.1.1, found.1.2, found.2⟩

theorem image_eq_self {n : Nat} (h : n ≠ dottedI)
    (hr : ∀ run ∈ toLower, ¬InRun run.1 run.2.1 run.2.2.1 n) :
    image toLower toLowerSeveral n = [Char.ofNat n] := by
  rcases image_eq h with h | ⟨run, hm, hi, -⟩
  · exact h
  · exact absurd hi (hr run hm)

theorem has_of_inRun {table : List (Nat × Nat × Nat)} {run : Nat × Nat × Nat} {n : Nat}
    (hm : run ∈ table) (h : InRun run.1 run.2.1 run.2.2 n) : has table n = true := by
  rw [has, List.any_eq_true]
  refine ⟨run, hm, ?_⟩
  simp only [Bool.and_eq_true, decide_eq_true_eq, beq_iff_eq]
  exact ⟨⟨h.1, h.2.1⟩, h.2.2⟩

theorem image_ne_nil {table : List (Nat × Nat × Nat × Nat)}
    {several : List (Nat × List Nat)} (h : ∀ entry ∈ several, entry.2 ≠ []) (n : Nat) :
    image table several n ≠ [] := by
  rw [image]
  split
  · rename_i many found
    obtain ⟨before, after, rfl, -⟩ := List.lookup_eq_some_iff.1 found
    rw [ne_eq, List.map_eq_nil_iff]
    exact h (n, many) (List.mem_append_right _ List.mem_cons_self)
  · dsimp only
    split <;> exact List.cons_ne_nil _ _

end CaseTable

/-! ## Lower case -/

open CaseTable

/-- A small letter that is its own lower case and counts as no other letter. -/
structure Small (d : Char) : Prop where
  isLowerChar : isLowerChar d = true
  lowerChar : lowerChar d = [d]
  plain : d.toNat ∉ likeLetters

theorem small_of_isLower {d : Char} (h : d.isLower = true) : Small d := by
  have ascii := isLower_lt h
  refine ⟨by rw [Text.isLowerChar, if_pos ascii, h], ?_, by simp [likeLetters]; omega⟩
  rw [lowerChar_of_lt ascii, Char.toLower_eq_of_not_isUpper (Char.not_isUpper_of_isLower h)]

theorem toNat_ofNat_of_valid {n : Nat} (h : n < 0xd800 ∨ 0xe000 ≤ n ∧ n < 0x110000) :
    (Char.ofNat n).toNat = n := by
  have valid : n.isValidChar := by
    rcases h with h | h
    · exact .inl h
    · exact .inr ⟨by omega, h.2⟩
  rw [Char.toNat_ofNat, if_pos valid]

/-- Where the image of a number in a run is. -/
theorem inRun_image {first last step n : Nat} (target : Nat) (h : InRun first last step n) :
    InRun target (target + (last - first)) step (n + target - first) := by
  obtain ⟨hf, hl, hs⟩ := h
  exact ⟨by omega, by omega, by rw [← hs]; congr 1; omega⟩

/-- The images of a run of the table are characters. Of those of letters beyond the basic alphabet
only one is in it, the k for the kelvin sign. -/
theorem toNat_image_of_mem {run : Nat × Nat × Nat × Nat} {n : Nat} (hm : run ∈ toLower)
    (hn : 128 ≤ n) (h : InRun run.1 run.2.1 run.2.2.1 n) :
    (Char.ofNat (n + run.2.2.2 - run.1)).toNat = n + run.2.2.2 - run.1 ∧
      (128 ≤ n + run.2.2.2 - run.1 ∨ n + run.2.2.2 - run.1 = 0x6b) := by
  have settled := List.all_eq_true.1 toLower_settles run hm
  obtain ⟨first, last, step, target⟩ := run
  obtain ⟨lower, upper, -⟩ := inRun_image target h
  obtain ⟨hf, hl, -⟩ := h
  dsimp only at hf hl ⊢
  simp only [settles, Bool.and_eq_true, Bool.or_eq_true, Nat.blt_eq, Nat.ble_eq, Nat.beq_eq]
    at settled
  obtain ⟨⟨⟨⟨basic, valid⟩, -⟩, -⟩, -⟩ := settled
  exact ⟨toNat_ofNat_of_valid (by omega), by omega⟩

/-- The images of a run of the table are small letters. -/
theorem small_of_mem {run : Nat × Nat × Nat × Nat} {n : Nat} (hm : run ∈ toLower) (hn : 128 ≤ n)
    (h : InRun run.1 run.2.1 run.2.2.1 n) : Small (Char.ofNat (n + run.2.2.2 - run.1)) := by
  have settled := List.all_eq_true.1 toLower_settles run hm
  obtain ⟨code, basic⟩ := toNat_image_of_mem hm hn h
  obtain ⟨first, last, step, target⟩ := run
  have hit : InRun target (target + (last - first)) step (n + target - first) := inRun_image target h
  dsimp only at code basic ⊢
  simp only [settles, Bool.and_eq_true, List.all_eq_true] at settled
  obtain ⟨⟨⟨-, clear⟩, domain⟩, small⟩ := settled
  obtain ⟨run', hm', inside⟩ := List.any_eq_true.1 small
  have ne {k : Nat} (hk : k ∈ dottedI :: likeLetters) : n + target - first ≠ k := by
    rintro rfl
    exact not_inRun_of_apart (clear _ hk) hit ⟨le_refl _, le_refl _, Nat.mod_one _⟩
  rcases basic with beyond | k
  · have not_ascii : ¬n + target - first < 128 := by omega
    refine ⟨?_, ?_, fun hk => ne (List.mem_cons_of_mem _ hk) code.symm⟩
    · rw [isLowerChar, code, if_neg not_ascii, has_of_inRun hm' (inRun_of_within inside hit),
        Bool.true_or]
    · rw [lowerChar, code, if_neg not_ascii, image_eq_self (ne List.mem_cons_self) fun r hr =>
        not_inRun_of_apart (domain r hr) hit]
  · rw [k]
    exact small_of_isLower rfl

theorem lowerChar_ne_nil (c : Char) : lowerChar c ≠ [] := by
  rw [lowerChar]
  split
  · exact List.cons_ne_nil _ _
  · exact image_ne_nil (by decide) _

theorem upperChar_ne_nil (c : Char) : upperChar c ≠ [] := by
  rw [upperChar]
  split
  · exact List.cons_ne_nil _ _
  · exact image_ne_nil (by decide) _

/-- The lower case of a letter is the letter itself or a small letter. -/
theorem lowerChar_cases {c : Char} (h : c.toNat ≠ dottedI) :
    ∃ d, lowerChar c = [d] ∧ (d = c ∨ Small d) := by
  by_cases ascii : c.toNat < 128
  · refine ⟨c.toLower, lowerChar_of_lt ascii, ?_⟩
    by_cases hu : c.isUpper = true
    · refine .inr (small_of_isLower ?_)
      rw [Char.isLower_toLower_eq_isAlpha, Char.isAlpha, hu, Bool.true_or]
    · exact .inl (Char.toLower_eq_of_not_isUpper hu)
  · rw [lowerChar, if_neg ascii]
    rcases image_eq h with h | ⟨run, hm, hi, h⟩
    · exact ⟨c, by rw [h, Char.ofNat_toNat], .inl rfl⟩
    · exact ⟨_, h, .inr (small_of_mem hm (by omega) hi)⟩

/-- Only the kelvin sign is beyond the basic alphabet while its lower case is in it. -/
theorem lt_of_lowerChar {c d : Char} (h : lowerChar c = [d]) (hc : c.toNat ≠ dottedI)
    (hd : d.toNat < 128) (hk : d ≠ 'k') : c.toNat < 128 := by
  by_contra beyond
  rw [lowerChar, if_neg beyond] at h
  rcases image_eq hc with same | ⟨run, hm, hi, image⟩
  · rw [same, Char.ofNat_toNat, List.cons.injEq] at h
    exact beyond (h.1 ▸ hd)
  · obtain ⟨code, basic⟩ := toNat_image_of_mem hm (by omega) hi
    rw [image, List.cons.injEq] at h
    obtain ⟨rfl, -⟩ := h
    rcases basic with high | k
    · omega
    · exact hk (by rw [k])

end ServiceModel.Text
