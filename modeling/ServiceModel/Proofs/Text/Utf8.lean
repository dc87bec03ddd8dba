/-
Texts and their bytes. The bytes of a character are a first byte and as many more as it asks for,
so that a text is read from its bytes as it was written.
-/
import Mathlib.Data.List.TakeWhile
import Mathlib.Tactic.SplitIfs
import ServiceModel.Text.Utf8

namespace ServiceModel.Text.Utf8

/-! ## Sequences of bytes -/

/-- The bytes spell the character: a first byte, and those that continue it as it asks for. -/
structure Spells (lead : Nat) (tail : List Nat) (c : Char) : Prop where
  count : continuationCount? lead = some tail.length
  fits : ∀ second ∈ tail.head?, maySecond lead second = true
  continued : ∀ b ∈ tail.tail, isContinuation b = true
  code : Char.ofNat (codePoint lead tail) = c

theorem decodeFrom_spells {lead : Nat} {tail : List Nat} {c : Char} (h : Spells lead tail c)
    (position : Nat) (rest : List Nat) :
    decodeFrom position (lead :: (tail ++ rest)) =
      (decodeFrom (position + 1 + tail.length) rest).map (c :: ·) := by
  have good : (if tail.length = 0 then 0 else goodCount lead tail.length (tail ++ rest)) =
      tail.length := by
    cases tail with
    | nil => rfl
    | cons second others =>
      have whole : others.takeWhile isContinuation = others :=
        List.takeWhile_eq_self_iff.2 h.continued
      rw [if_neg (by simp), List.cons_append, goodCount, if_pos (h.fits second rfl),
        List.length_cons, Nat.add_sub_cancel, List.take_left, whole, Nat.add_comm]
  rw [decodeFrom, h.count]
  dsimp only
  rw [good, if_pos rfl, List.drop_left, List.take_left, h.code]
  cases decodeFrom (position + 1 + tail.length) rest <;> rfl

theorem isContinuation_add {b : Nat} (h : b < 64) : isContinuation (b + 128) = true := by
  simp only [isContinuation, Bool.and_eq_true, decide_eq_true_eq]
  omega

/-- After four of the first bytes, not every byte that continues may be the second. -/
theorem maySecond_add {lead b : Nat} (h : b < 64) (three : lead = 0xe0 → 32 ≤ b)
    (surrogate : lead = 0xed → b < 32) (four : lead = 0xf0 → 16 ≤ b)
    (last : lead = 0xf4 → b < 16) : maySecond lead (b + 128) = true := by
  rw [maySecond, isContinuation_add h, Bool.true_and]
  split_ifs <;> simp only [decide_eq_true_eq] <;> omega

/-! ## Characters -/

/-- The bytes of a character spell it. -/
theorem spells_utf8EncodeChar (c : Char) : ∃ lead tail,
    (String.utf8EncodeChar c).map UInt8.toNat = lead :: tail ∧ Spells lead tail c := by
  have valid : c.val.toNat < 0xd800 ∨ 0xdfff < c.val.toNat ∧ c.val.toNat < 0x110000 := c.valid
  have same : Char.ofNat c.val.toNat = c := Char.ofNat_toNat c
  have low (n : Nat) : n % 64 < 64 := Nat.mod_lt _ (by decide)
  rw [String.utf8EncodeChar]
  generalize c.val.toNat = v at valid same
  split_ifs with one two three
  · refine ⟨v, [], by simp; omega, ?_, nofun, nofun, same⟩
    exact if_pos (by omega)
  · have code : codePoint (v / 64 % 32 + 192) [v % 64 + 128] = v := by
      show (v / 64 % 32 + 192) % 32 * 64 + (v % 64 + 128) % 64 = v
      omega
    refine ⟨v / 64 % 32 + 192, [v % 64 + 128], by simp; omega, ?_, ?_, nofun, by rw [code, same]⟩
    · unfold continuationCount?
      rw [if_neg (by omega), if_neg (by omega), if_pos (by omega)]
      rfl
    · rintro _ ⟨⟩
      exact maySecond_add (low v) (by omega) (by omega) (by omega) (by omega)
  · have code : codePoint (v / 4096 % 16 + 224) [v / 64 % 64 + 128, v % 64 + 128] = v := by
      show ((v / 4096 % 16 + 224) % 16 * 64 + (v / 64 % 64 + 128) % 64) * 64 +
        (v % 64 + 128) % 64 = v
      omega
    refine ⟨v / 4096 % 16 + 224, [v / 64 % 64 + 128, v % 64 + 128], by simp; omega, ?_, ?_, ?_,
      by rw [code, same]⟩
    · unfold continuationCount?
      rw [if_neg (by omega), if_neg (by omega), if_neg (by omega), if_pos (by omega)]
      rfl
    · rintro _ ⟨⟩
      exact maySecond_add (low _) (by omega) (by omega) (by omega) (by omega)
    · exact List.forall_mem_singleton.2 (isContinuation_add (low v))
  · have code : codePoint (v / 262144 % 8 + 240)
        [v / 4096 % 64 + 128, v / 64 % 64 + 128, v % 64 + 128] = v := by
      show (((v / 262144 % 8 + 240) % 8 * 64 + (v / 4096 % 64 + 128) % 64) * 64 +
        (v / 64 % 64 + 128) % 64) * 64 + (v % 64 + 128) % 64 = v
      omega
    refine ⟨v / 262144 % 8 + 240, [v / 4096 % 64 + 128, v / 64 % 64 + 128, v % 64 + 128],
      by simp; omega, ?_, ?_, ?_, by rw [code, same]⟩
    · unfold continuationCount?
      rw [if_neg (by omega), if_neg (by omega), if_neg (by omega), if_neg (by omega),
        if_pos (by omega)]
      rfl
    · rintro _ ⟨⟩
      exact maySecond_add (low _) (by omega) (by omega) (by omega) (by omega)
    · exact List.forall_mem_cons.2 ⟨isContinuation_add (low _),
        List.forall_mem_singleton.2 (isContinuation_add (low v))⟩

theorem decodeFrom_utf8Encode : ∀ (chars : List Char) (position : Nat),
    decodeFrom position ((chars.flatMap String.utf8EncodeChar).map UInt8.toNat) = .ok chars
  | [], _ => by rw [List.flatMap_nil, List.map_nil, decodeFrom]
  | c :: chars, position => by
    obtain ⟨lead, tail, bytes, spells⟩ := spells_utf8EncodeChar c
    rw [List.flatMap_cons, List.map_append, bytes, List.cons_append, decodeFrom_spells spells,
      decodeFrom_utf8Encode chars]
    rfl

/-! ## Texts -/

theorem toList_loop (bytes : ByteArray) (i : Nat) (done : List UInt8) :
    ByteArray.toList.loop bytes i done = done.reverse ++ bytes.data.toList.drop i := by
  fun_induction ByteArray.toList.loop bytes i done with
  | case1 i done h ih =>
    have here : bytes.get! i = bytes.data.toList[i] := getElem!_pos bytes.data i h
    rw [ih, List.reverse_cons, List.append_assoc, here, List.singleton_append,
      ← List.drop_eq_getElem_cons]
  | case2 i done h =>
    rw [List.drop_eq_nil_of_le (Nat.not_lt.1 h), List.append_nil]

theorem toList_toUTF8 (text : String) :
    text.toUTF8.toList = text.toList.flatMap String.utf8EncodeChar := by
  rw [ByteArray.toList, toList_loop]
  show text.toByteArray.data.toList = _
  rw [← String.utf8Encode_toList, List.utf8Encode, List.data_toByteArray]

/-- A text is read from its bytes. -/
theorem decode_toUTF8 (text : String) : decode text.toUTF8.toList = .ok text := by
  rw [decode, toList_toUTF8, decodeFrom_utf8Encode]
  exact congrArg Except.ok String.ofList_toList

end ServiceModel.Text.Utf8
