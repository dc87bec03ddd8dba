/-
Reading written spans. Reading takes every spelling of an integer between the semicolons, writing
has one: decimal digits behind at most a minus. So a span that was written is read back, and a
text that was read is brought into that one spelling by writing what was read.
-/
import ServiceModel.Proofs.Text.Numeral
import ServiceModel.Proofs.Text.Range

namespace ServiceModel.Text

/-! ## Written integers -/

namespace Numeral

theorem isDigit_of_mem_toDigits {n : Nat} {c : Char} (h : c ∈ Nat.toDigits 10 n) :
    c.isDigit = true :=
  Nat.isDigit_of_mem_toDigits (by decide) (by decide) h

theorem isFigure_of_mem_toDigits {n : Nat} : ∀ c ∈ Nat.toDigits 10 n, isFigure 10 c = true := by
  intro c hc
  have digit := isDigit_of_mem_toDigits hc
  have small := isDigit_iff.1 digit
  exact isFigure_digit digit (by omega)

theorem valueOf_toDigits (n : Nat) : valueOf 10 (Nat.toDigits 10 n) = n := by
  rw [valueOf_digits fun c hc => isDigit_of_mem_toDigits hc, Nat.ofDigitChars_ten_toDigits]

/-- A written integer is read back. -/
theorem readInt_toString (i : Int) : readInt 10 (toString i).toList = some i := by
  cases i with
  | ofNat n =>
    have text : (toString (Int.ofNat n)).toList = Nat.toDigits 10 n ++ [] := by
      show n.repr.toList = _
      rw [List.append_nil, Nat.repr_eq_ofList_toDigits, String.toList_ofList]
    rw [text, readInt_figures Nat.toDigits_ne_nil isFigure_of_mem_toDigits (List.forall_mem_nil _),
      valueOf_toDigits]
    rfl
  | negSucc n =>
    have text : (toString (Int.negSucc n)).toList = '-' :: Nat.toDigits 10 (n + 1) := by
      rw [toString_negSucc, String.toList_append, Nat.repr_eq_ofList_toDigits, String.toList_ofList,
        String.toList_ofList, List.singleton_append]
    rw [text, readInt_minus Nat.toDigits_ne_nil isFigure_of_mem_toDigits, valueOf_toDigits]
    rfl

/-- A written integer has nothing but digits and a minus. -/
theorem digit_or_minus_of_mem {i : Int} {c : Char} (h : c ∈ (toString i).toList) :
    c.isDigit = true ∨ c = '-' := by
  cases i with
  | ofNat n => exact .inl (isDigit_of_mem_repr h)
  | negSucc n =>
    rw [toString_negSucc, String.toList_append] at h
    rcases List.mem_append.1 h with h | h
    · exact .inr (List.mem_singleton.1 h)
    · exact .inl (isDigit_of_mem_repr h)

end Numeral

/-! ## Written spans -/

namespace Range

/-- The integers that stand between the semicolons of a text, however they are spelled. -/
def integers? (text : String) : Option (List Int) :=
  (cut ';' text.toList).mapM (Numeral.readInt 10)

theorem integers?_encode (range : Range) : integers? range.encode = some range.numbers := by
  have read : Numeral.readInt 10 ∘ (fun i : Int => (toString i).toList) = fun i => pure (id i) :=
    funext Numeral.readInt_toString
  rw [integers?, cut_encode, List.mapM_map, read, List.mapM_pure, List.map_id]
  rfl

theorem length_of_mapM {α β : Type} {f : α → Option β} :
    ∀ {xs : List α} {ys : List β}, xs.mapM f = some ys → ys.length = xs.length
  | [], ys, h => by
    cases h
    rfl
  | x :: xs, ys, h => by
    rw [List.mapM_cons] at h
    obtain ⟨y, -, h⟩ := Option.bind_eq_some_iff.1 h
    obtain ⟨rest, hr, h⟩ := Option.bind_eq_some_iff.1 h
    cases h
    rw [List.length_cons, List.length_cons, length_of_mapM hr]

theorem length_of_integers? {text : String} {is : List Int} (h : integers? text = some is) :
    is.length = text.toList.count ';' + 1 := by
  rw [length_of_mapM h, length_cut]

/-- The characters of a written span. -/
theorem mem_encode {range : Range} {c : Char} (h : c ∈ range.encode.toList) :
    c.isDigit = true ∨ c = '-' ∨ c = ';' := by
  rw [← join_cut ';' range.encode.toList, cut_encode] at h
  rcases mem_join h with rfl | ⟨piece, hp, hc⟩
  · exact .inr (.inr rfl)
  · obtain ⟨i, -, rfl⟩ := List.mem_map.1 hp
    exact (Numeral.digit_or_minus_of_mem hc).imp_right .inl

/-! ## What a text is read as -/

theorem decode_empty : decode "" = .ok none := rfl

/-- A text without exactly six parts is refused as such. -/
theorem decode_of_count {text : String} (hn : text ≠ "") (hc : text.toList.count ';' ≠ 5) :
    decode text = .error (.parts text) := by
  have parts : (cut ';' text.toList).length ≠ 6 := by
    rw [length_cut]
    omega
  unfold decode
  rw [if_neg (mt String.isEmpty_iff.1 hn)]
  split
  · rename_i h
    rw [h] at parts
    exact absurd rfl parts
  · rfl

/-- A text of six parts is read part by part. -/
theorem decode_of_six {text : String} (hc : text.toList.count ';' = 5) :
    (∃ range, integers? text = some range.numbers ∧ decode text = .ok (some range)) ∨
      integers? text = none ∧ decode text = .error .integer := by
  have parts : (cut ';' text.toList).length = 6 := by rw [length_cut, hc]
  have filled : text ≠ "" := by
    rintro rfl
    exact absurd hc (by decide)
  unfold decode integers?
  rw [if_neg (mt String.isEmpty_iff.1 filled)]
  split
  · rename_i pieces a b c d e f hp
    rw [hp]
    cases hr : [a, b, c, d, e, f].mapM (Numeral.readInt 10) with
    | none => exact .inr ⟨rfl, rfl⟩
    | some is =>
      have six := length_of_mapM hr
      match is, six with
      | [a, b, c, d, e, f], _ => exact .inl ⟨⟨⟨a, b, c⟩, ⟨d, e, f⟩⟩, rfl, rfl⟩
  · rename_i other
    match hp : cut ';' text.toList, parts with
    | [a, b, c, d, e, f], _ => exact absurd hp (other a b c d e f)

theorem decode_eq_some_iff {text : String} {range : Range} :
    decode text = .ok (some range) ↔ integers? text = some range.numbers := by
  by_cases hc : text.toList.count ';' = 5
  · rcases decode_of_six hc with ⟨range', hi, hd⟩ | ⟨hi, hd⟩
    · rw [hi, hd]
      constructor
      · rintro ⟨⟩
        rfl
      · intro h
        rw [numbers_injective (Option.some.inj h)]
    · rw [hi, hd]
      constructor <;> rintro ⟨⟩
  · have counted : integers? text ≠ some range.numbers := fun h =>
      hc (Nat.succ.inj (length_of_integers? h).symm)
    refine iff_of_false (fun h => ?_) counted
    by_cases hn : text = ""
    · rw [hn, decode_empty] at h
      cases h
    · rw [decode_of_count hn hc] at h
      cases h

/-- A text is refused for the number of its parts when it has not five semicolons. -/
theorem decode_malformed_iff {text : String} (hn : text ≠ "") :
    decode text = .error (.parts text) ↔ text.toList.count ';' ≠ 5 := by
  constructor
  · intro h hc
    rcases decode_of_six hc with ⟨range, -, hd⟩ | ⟨-, hd⟩
    · rw [hd] at h
      cases h
    · rw [hd] at h
      cases h
  · exact decode_of_count hn

/-! ## Writing and reading -/

/-- Writing spans and reading them are inverse to each other. -/
structure Reversible : Prop where
  /-- What was written is read back. -/
  back : ∀ range : Range, decode range.encode = .ok (some range)
  /-- No two spans are written alike. -/
  injective : Function.Injective encode
  /-- Read are the texts of six integers, in every spelling of an integer. -/
  accepted : ∀ (text : String) (range : Range), decode text = .ok (some range) ↔
    (cut ';' text.toList).mapM (Numeral.readInt 10) = some range.numbers
  /-- What was read is read again from its own writing. -/
  again : ∀ (text : String) (range : Range), decode text = .ok (some range) → decode range.encode = .ok (some range)
  /-- Written is one spelling: no blanks, no plus, no underscores, no digits of other scripts. -/
  plain : ∀ range : Range, ∀ c ∈ range.encode.toList, c.isDigit = true ∨ c = '-' ∨ c = ';'
  /-- The text is named malformed when it has not six parts, and only then. -/
  malformed : ∀ text : String, text ≠ "" →
    ((∃ e, decode text = .error e ∧
      e.message? = some ("Malformed encoded range: " ++ quoted text)) ↔
        text.toList.count ';' ≠ 5)

theorem decode_encode (range : Range) : decode range.encode = .ok (some range) :=
  decode_eq_some_iff.2 (integers?_encode range)

theorem encode_reversible : Reversible where
  back := decode_encode
  injective _ _ := encode_injective
  accepted _ _ := decode_eq_some_iff
  again _ range _ := decode_encode range
  plain _ _ := mem_encode
  malformed text hn := by
    rw [← decode_malformed_iff hn]
    constructor
    · rintro ⟨e, hd, hm⟩
      by_cases hc : text.toList.count ';' = 5
      · rcases decode_of_six hc with ⟨range, -, hr⟩ | ⟨-, hr⟩
        · rw [hr] at hd
          cases hd
        · rw [hr] at hd
          cases hd
          cases hm
      · exact decode_of_count hn hc
    · exact fun hd => ⟨_, hd, rfl⟩

/-- Blanks, signs, underscores and digits of other scripts are read and not written. -/
example : (decode " 1;+2;1_0;-0;٣;07").toOption.map (Option.map encode) =
    some (some "1;2;10;0;3;7") := by decide

end Range

end ServiceModel.Text
