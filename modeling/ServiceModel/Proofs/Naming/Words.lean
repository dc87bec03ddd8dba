/-
Where words begin and end. Whether two neighbours in a text belong to one word depends on the two
and on the character behind them alone; the words of a text are what is left of it when it is cut
between all neighbours that do not belong together and everything but letters and digits is taken
out. So the words of a text, one behind the other, are its letters and digits.

A stretch of letters and digits is read word by word: the induction is on what is left of it, and
its first word is a run of digits, a run of small letters with at most one capital in front, or a
run of capitals (`FirstWord`).
-/
import ServiceModel.Naming.Words
import Mathlib

namespace ServiceModel.Naming

/-! ## Cutting by a local rule -/

/-- Is there a cut between the neighbours `c` and `d` when `after` stands behind them? -/
def isCut (c d : Char) (after : Option Char) : Bool :=
  !isWordChar c || !isWordChar d ||
    (c.isDigit && d.isAlpha) || (c.isAlpha && d.isDigit) ||
    (c.isLower && d.isUpper) || (c.isUpper && d.isUpper && after.any Char.isLower)

/-- The characters of a text, each with the one behind it; behind the last one stands `after`. -/
def followed (after : Option Char) : List Char → List (Char × Option Char)
  | [] => []
  | c :: rest => (c, rest.head?.or after) :: followed after rest

/-- Do neighbours belong together? -/
def joined (a b : Char × Option Char) : Bool := !isCut a.1 b.1 b.2

/-- The letters and digits of a piece. -/
def kept (piece : List (Char × Option Char)) : List Char := (piece.map (·.1)).filter isWordChar

/-- The pieces of a text: it is cut between all neighbours that do not belong together, and of what
lies between two cuts the letters and digits are kept, if there are any. -/
def pieces (text : List Char) : List (List Char) :=
  (((followed none text).splitBy joined).map kept).filter (!·.isEmpty)

theorem map_followed (after : Option Char) (text : List Char) :
    (followed after text).map (·.1) = text := by
  induction text with
  | nil => rfl
  | cons c rest ih => rw [followed, List.map_cons, ih]

theorem followed_append (after : Option Char) (text rest : List Char) :
    followed after (text ++ rest) =
      followed (rest.head?.or after) text ++ followed after rest := by
  induction text with
  | nil => rfl
  | cons c text ih =>
    rw [List.cons_append, followed, followed, ih, List.cons_append, List.head?_append,
      Option.or_assoc]

theorem mem_followed_getLast? {after : Option Char} {text : List Char} {a : Char × Option Char}
    (h : a ∈ (followed after text).getLast?) : a.1 ∈ text.getLast? := by
  have last := congrArg List.getLast? (map_followed after text)
  rw [List.getLast?_map, Option.mem_def.1 h] at last
  exact last.symm

theorem followed_ne_nil {after : Option Char} {text : List Char} (h : text ≠ []) :
    followed after text ≠ [] := by
  cases text with
  | nil => exact absurd rfl h
  | cons c rest => exact List.cons_ne_nil _ _

/-- Where a text is cut, the pieces of its two parts can be taken apart. -/
theorem pieces_append {text rest : List Char}
    (h : ∀ c ∈ text.getLast?, ∀ d more, rest = d :: more → isCut c d more.head? = true) :
    pieces (text ++ rest) =
      (((followed rest.head? text).splitBy joined).map kept).filter (!·.isEmpty) ++
        pieces rest := by
  have apart : ∀ a ∈ (followed rest.head? text).getLast?, ∀ b ∈ (followed none rest).head?,
      joined a b = false := by
    intro a ha b hb
    cases rest with
    | nil => cases hb
    | cons d more =>
      cases hb
      rw [joined, Option.or_none, h a.1 (mem_followed_getLast? ha) d more rfl, Bool.not_true]
  rw [pieces, followed_append, Option.or_none, List.splitBy_append apart, List.map_append,
    List.filter_append, pieces]

theorem isCut_of_not_word {c d : Char} (after : Option Char)
    (h : isWordChar c = false ∨ isWordChar d = false) : isCut c d after = true := by
  rcases h with h | h <;> simp [isCut, h]

/-- What belongs to no word is no piece. -/
theorem pieces_cons_of_not_word {c : Char} (rest : List Char) (h : isWordChar c = false) :
    pieces (c :: rest) = pieces rest := by
  have cut : ∀ a ∈ [c].getLast?, ∀ d more, rest = d :: more → isCut a d more.head? = true := by
    intro a ha d more _
    cases ha
    exact isCut_of_not_word _ (.inl h)
  have alone : kept [(c, rest.head?)] = [] := by simp [kept, h]
  have single : (followed rest.head? [c]).splitBy joined = [[(c, rest.head?)]] := rfl
  rw [← List.singleton_append, pieces_append cut, single, List.map_singleton, alone]
  rfl

/-- A word in front of `rest`: its neighbours belong together, and behind it there is a cut. -/
structure IsWordBefore (rest word : List Char) : Prop where
  ne_nil : word ≠ []
  chars : ∀ c ∈ word, isWordChar c = true
  joined : (followed rest.head? word).IsChain fun a b => joined a b
  cut : ∀ c ∈ word.getLast?, ∀ d more, rest = d :: more → isCut c d more.head? = true

theorem IsWordBefore.pieces {rest word : List Char} (h : IsWordBefore rest word) :
    pieces (word ++ rest) = word :: pieces rest := by
  have whole : kept (followed rest.head? word) = word := by
    rw [kept, map_followed, List.filter_eq_self.2 h.chars]
  rw [pieces_append h.cut, List.splitBy_of_isChain (followed_ne_nil h.ne_nil) h.joined,
    List.map_singleton, whole, List.filter_cons_of_pos (by simp [h.ne_nil]), List.filter_nil,
    List.singleton_append]

/-! ## Runs -/

/-- Neighbours of a kind `p` belong together as long as what stands behind them is of the kind
`q`. -/
theorem isChain_followed {p : Char → Prop} {q : Option Char → Prop}
    (hj : ∀ c d after, p c → p d → q after → isCut c d after = false)
    (hq : ∀ c, p c → q (some c)) {after : Option Char} (ha : q after) :
    ∀ {word : List Char}, (∀ c ∈ word, p c) →
      (followed after word).IsChain fun a b => joined a b
  | [], _ => .nil
  | [c], _ => .singleton _
  | c :: d :: rest, h => by
    have behind : q (rest.head?.or after) := by
      cases rest with
      | nil => exact ha
      | cons e more => exact hq e (h e (by simp))
    have tail := isChain_followed hj hq ha fun e he => h e (List.mem_cons_of_mem c he)
    refine List.IsChain.cons_cons ?_ tail
    rw [joined, hj c d _ (h c (by simp)) (h d (by simp)) behind, Bool.not_false]

/-! ## Kinds of neighbours -/

theorem not_isAlpha_of_isDigit {c : Char} (h : c.isDigit = true) :
    c.isUpper = false ∧ c.isLower = false := by
  rw [Char.isDigit_iff_toNat] at h
  simp [Char.isUpper, Char.isLower, UInt32.le_iff_toNat_le] at h ⊢
  omega

theorem not_isDigit_of_isAlpha {c : Char} (h : c.isAlpha = true) : c.isDigit = false := by
  cases hd : c.isDigit with
  | false => rfl
  | true => simp [Char.isAlpha, not_isAlpha_of_isDigit hd] at h

theorem isWordChar_of_isAlpha {c : Char} (h : c.isAlpha = true) : isWordChar c = true := by
  simp [isWordChar, Char.isAlphanum, h]

theorem isWordChar_of_isDigit {c : Char} (h : c.isDigit = true) : isWordChar c = true := by
  simp [isWordChar, Char.isAlphanum, h]

theorem isAlpha_of_isUpper {c : Char} (h : c.isUpper = true) : c.isAlpha = true := by
  simp [Char.isAlpha, h]

theorem isAlpha_of_isLower {c : Char} (h : c.isLower = true) : c.isAlpha = true := by
  simp [Char.isAlpha, h]

theorem not_isLower_of_isUpper {c : Char} (h : c.isUpper = true) : c.isLower = false :=
  Bool.eq_false_iff.2 (Char.not_isLower_of_isUpper h)

section Kinds

variable {c d : Char} (after : Option Char)

theorem isCut_digits (hc : c.isDigit = true) (hd : d.isDigit = true) :
    isCut c d after = false := by
  simp [isCut, isWordChar, Char.isAlphanum, Char.isAlpha, hc, hd, not_isAlpha_of_isDigit]

theorem isCut_small (hc : c.isAlpha = true) (hd : d.isLower = true) :
    isCut c d after = false := by
  simp [isCut, isWordChar, Char.isAlphanum, hc, hd, isAlpha_of_isLower, not_isDigit_of_isAlpha,
    Char.not_isUpper_of_isLower]

theorem isCut_capitals (hc : c.isUpper = true) (hd : d.isUpper = true)
    (ha : after.any Char.isLower = false) : isCut c d after = false := by
  simp [isCut, isWordChar, Char.isAlphanum, hc, hd, ha, isAlpha_of_isUpper, not_isDigit_of_isAlpha,
    not_isLower_of_isUpper]

theorem isCut_digit_end (hc : c.isDigit = true) (hd : d.isDigit = false) :
    isCut c d after = true := by
  cases ha : d.isAlpha <;>
    simp [isCut, isWordChar, Char.isAlphanum, hc, hd, ha]

theorem isCut_small_end (hc : c.isLower = true) (hd : d.isLower = false) :
    isCut c d after = true := by
  cases hu : d.isUpper <;> cases hn : d.isDigit <;>
    simp [isCut, isWordChar, Char.isAlphanum, Char.isAlpha, hc, hd, hu, hn]

theorem isCut_capital_end (hc : c.isUpper = true)
    (hd : d.isAlpha = false ∨ d.isUpper = true ∧ after.any Char.isLower = true) :
    isCut c d after = true := by
  rcases hd with hd | ⟨hd, ha⟩
  · cases hn : d.isDigit <;>
      simp [isCut, isWordChar, Char.isAlphanum, isAlpha_of_isUpper, hc, hd, hn]
  · simp [isCut, hc, hd, ha]

end Kinds

/-! ## The words of a stretch -/

/-- The first word of a stretch of letters and digits and what is left of the stretch. -/
inductive FirstWord : List Char → List Char → Prop where
  /-- A run of digits. -/
  | digits {word rest : List Char} (ne_nil : word ≠ []) (run : ∀ c ∈ word, c.isDigit = true)
      (stop : ∀ d ∈ rest.head?, d.isDigit = false) : FirstWord word rest
  /-- Small letters, of which the first may be a capital. -/
  | small {c : Char} {word rest : List Char}
      (first : c.isLower = true ∨ c.isUpper = true ∧ word ≠ [])
      (run : ∀ d ∈ word, d.isLower = true) (stop : ∀ d ∈ rest.head?, d.isLower = false) :
      FirstWord (c :: word) rest
  /-- A run of capitals; a capital behind them belongs to the small letters behind it. -/
  | capitals {word rest : List Char} (ne_nil : word ≠ []) (run : ∀ c ∈ word, c.isUpper = true)
      (stop : ∀ d ∈ rest.head?, d.isAlpha = false ∨
        d.isUpper = true ∧ rest.tail.head?.any Char.isLower = true) : FirstWord word rest

theorem take_runLength (p : Char → Bool) (c : Char) (rest : List Char) :
    (c :: rest).take (1 + runLength p rest) = c :: rest.takeWhile p := by
  rw [Nat.add_comm, List.take_succ_cons, runLength]
  conv => lhs; rw [← List.takeWhile_append_dropWhile (p := p) (l := rest)]
  rw [List.take_left' (by rw [List.takeWhile_append_dropWhile])]

theorem drop_runLength (p : Char → Bool) (rest : List Char) :
    rest.drop (runLength p rest) = rest.dropWhile p := by
  conv => lhs; rw [← List.takeWhile_append_dropWhile (p := p) (l := rest)]
  rw [List.drop_left' (by rw [runLength, List.takeWhile_append_dropWhile])]

theorem drop_one_add_runLength (p : Char → Bool) (c : Char) (rest : List Char) :
    (c :: rest).drop (1 + runLength p rest) = rest.dropWhile p := by
  rw [Nat.add_comm, List.drop_succ_cons, drop_runLength]

theorem head?_dropWhile {p : Char → Bool} {rest : List Char} {d : Char}
    (h : d ∈ (rest.dropWhile p).head?) : p d = false := by
  have stops := List.head?_dropWhile_not p rest
  rw [Option.mem_def.1 h] at stops
  exact stops

theorem isUpper_of_isWordChar {c : Char} (h : isWordChar c = true) (hd : c.isDigit = false)
    (hl : c.isLower = false) : c.isUpper = true := by
  simpa [isWordChar, Char.isAlphanum, Char.isAlpha, hd, hl] using h

/-- Of several capitals in front of a small letter, the last one starts the next word. -/
theorem firstWord_capitals {c d : Char} {rest more : List Char}
    (run : ∀ e ∈ c :: rest.takeWhile Char.isUpper, e.isUpper = true)
    (behind : rest.dropWhile Char.isUpper = d :: more) (hd : d.isLower = true)
    (several : runLength Char.isUpper rest ≠ 0) :
    FirstWord ((c :: rest).take (runLength Char.isUpper rest))
      ((c :: rest).drop (runLength Char.isUpper rest)) := by
  obtain ⟨init, last, split⟩ : ∃ init last, c :: rest.takeWhile Char.isUpper = init ++ [last] :=
    ⟨_, _, (List.dropLast_append_getLast (List.cons_ne_nil _ _)).symm⟩
  have whole : c :: rest = init ++ last :: d :: more := by
    rw [← List.takeWhile_append_dropWhile (p := Char.isUpper) (l := rest), behind,
      ← List.cons_append, split, List.append_assoc, List.singleton_append]
  have length : init.length = runLength Char.isUpper rest := by
    simpa [runLength] using (congrArg List.length split).symm
  rw [split] at run
  rw [whole, List.take_left' length, List.drop_left' length]
  refine .capitals ?_ (fun e hm => run e (List.mem_append_left _ hm)) fun e hm => ?_
  · rintro rfl
    exact several length.symm
  · cases hm
    exact .inr ⟨run last (by simp), hd⟩

theorem firstWord_wordLength {c : Char} {rest : List Char} (h : isWordChar c = true) :
    FirstWord ((c :: rest).take (wordLength (c :: rest)))
      ((c :: rest).drop (wordLength (c :: rest))) := by
  rw [wordLength]
  cases hd : c.isDigit with
  | true =>
    rw [if_pos rfl, take_runLength, drop_one_add_runLength]
    refine .digits (List.cons_ne_nil _ _) (List.forall_mem_cons.2 ⟨hd, fun d hm => ?_⟩)
      fun d hm => head?_dropWhile hm
    exact List.mem_takeWhile_imp hm
  | false =>
    rw [if_neg Bool.false_ne_true]
    cases hl : c.isLower with
    | true =>
      rw [if_pos rfl, take_runLength, drop_one_add_runLength]
      exact .small (.inl hl) (fun d hm => List.mem_takeWhile_imp hm) fun d hm => head?_dropWhile hm
    | false =>
      have hu := isUpper_of_isWordChar h hd hl
      have run : ∀ d ∈ c :: rest.takeWhile Char.isUpper, d.isUpper = true :=
        List.forall_mem_cons.2 ⟨hu, fun d hm => List.mem_takeWhile_imp hm⟩
      rw [if_neg Bool.false_ne_true]
      dsimp only
      rw [drop_runLength]
      cases behind : rest.dropWhile Char.isUpper with
      | nil =>
        dsimp only
        rw [take_runLength, drop_one_add_runLength, behind]
        refine .capitals (List.cons_ne_nil _ _) run fun d hm => ?_
        cases hm
      | cons d more =>
        have head : d ∈ (rest.dropWhile Char.isUpper).head? := by rw [behind]; rfl
        have hdu : d.isUpper = false := head?_dropWhile head
        dsimp only
        split
        · rename_i hdl
          split
          · -- one capital in front of small letters
            rename_i none
            have only : rest = d :: more := by
              rw [← behind, ← drop_runLength, none, List.drop_zero]
            rw [take_runLength, drop_one_add_runLength]
            refine .small (.inr ⟨hu, ?_⟩) (fun e hm => List.mem_takeWhile_imp hm)
              fun e hm => head?_dropWhile hm
            rw [only, List.takeWhile_cons_of_pos hdl]
            exact List.cons_ne_nil _ _
          · rename_i several
            exact firstWord_capitals run behind hdl several
        · rename_i hdl
          rw [take_runLength, drop_one_add_runLength, behind]
          refine .capitals (List.cons_ne_nil _ _) run fun e hm => ?_
          cases hm
          exact .inl (by simp [Char.isAlpha, hdu, hdl])

theorem FirstWord.isWordChar {word rest : List Char} (h : FirstWord word rest) :
    ∀ c ∈ word, isWordChar c = true := by
  cases h with
  | digits _ run _ => exact fun c hc => isWordChar_of_isDigit (run c hc)
  | small first run _ =>
    refine List.forall_mem_cons.2 ⟨isWordChar_of_isAlpha ?_, fun d hd =>
      isWordChar_of_isAlpha (isAlpha_of_isLower (run d hd))⟩
    exact first.elim isAlpha_of_isLower fun h => isAlpha_of_isUpper h.1
  | capitals _ run _ => exact fun c hc => isWordChar_of_isAlpha (isAlpha_of_isUpper (run c hc))

/-- Behind a stretch of letters and digits stands what belongs to no word. -/
def Ended (more : List Char) : Prop := ∀ d ∈ more.head?, isWordChar d = false

theorem Ended.any_isLower {more : List Char} (h : Ended more) :
    more.head?.any Char.isLower = false := by
  cases more with
  | nil => rfl
  | cons d more =>
    have hd : isWordChar d = false := h d rfl
    cases hl : d.isLower with
    | false => exact hl
    | true => rw [isWordChar_of_isAlpha (isAlpha_of_isLower hl)] at hd; cases hd

theorem isCut_behind {c : Char} {rest more : List Char} (hm : Ended more)
    (stop : ∀ d left, rest = d :: left → isCut c d (left ++ more).head? = true) :
    ∀ d behind, rest ++ more = d :: behind → isCut c d behind.head? = true := by
  intro d behind he
  cases rest with
  | nil =>
    rw [List.nil_append] at he
    subst he
    exact isCut_of_not_word _ (.inr (hm d rfl))
  | cons e left =>
    cases he
    exact stop d left rfl

/-- The first word of a stretch is a word in front of what is left of the stretch and of what
stands behind it. -/
theorem FirstWord.isWordBefore {word rest more : List Char} (h : FirstWord word rest)
    (hm : Ended more) : IsWordBefore (rest ++ more) word := by
  have kept := h.isWordChar
  cases h with
  | digits ne_nil run stop =>
    refine ⟨ne_nil, kept, ?_, fun c hc => isCut_behind hm fun d left he => ?_⟩
    · exact isChain_followed (p := (·.isDigit = true)) (q := fun _ => True)
        (fun c d after hc hd _ => isCut_digits after hc hd) (fun _ _ => trivial) trivial run
    · exact isCut_digit_end _ (run c (List.mem_of_getLast? hc)) (stop d (by rw [he]; rfl))
  | @small first word rest form run stop =>
    have alpha : first.isAlpha = true :=
      form.elim isAlpha_of_isLower fun h => isAlpha_of_isUpper h.1
    refine ⟨List.cons_ne_nil _ _, kept, ?_, fun c hc => isCut_behind hm fun d left he => ?_⟩
    · have tail : (followed (rest ++ more).head? word).IsChain fun a b => joined a b :=
        isChain_followed (p := (·.isLower = true)) (q := fun _ => True)
          (fun c d after hc hd _ => isCut_small after (isAlpha_of_isLower hc) hd)
          (fun _ _ => trivial) trivial run
      cases word with
      | nil => exact .singleton _
      | cons d word =>
        refine .cons_cons ?_ tail
        rw [joined, isCut_small _ alpha (run d List.mem_cons_self), Bool.not_false]
    · have last : c.isLower = true := by
        cases word with
        | nil =>
          cases hc
          exact form.elim id fun h => absurd rfl h.2
        | cons d word => exact run c (List.mem_of_getLast? hc)
      exact isCut_small_end _ last (stop d (by rw [he]; rfl))
  | capitals ne_nil run stop =>
    have behind : (rest ++ more).head?.any Char.isLower = false := by
      cases rest with
      | nil => exact hm.any_isLower
      | cons d left =>
        rcases stop d rfl with hd | ⟨hd, -⟩
        · exact (Bool.or_eq_false_iff.1 hd).2
        · exact not_isLower_of_isUpper hd
    refine ⟨ne_nil, kept, ?_, fun c hc => isCut_behind hm fun d left he => ?_⟩
    · exact isChain_followed (p := (·.isUpper = true)) (q := fun o => o.any Char.isLower = false)
        (fun c d after hc hd ha => isCut_capitals after hc hd ha)
        (fun c hc => not_isLower_of_isUpper hc) behind run
    · refine isCut_capital_end _ (run c (List.mem_of_getLast? hc)) ?_
      refine (stop d (by rw [he]; rfl)).imp_right fun ⟨hd, ha⟩ => ⟨hd, ?_⟩
      subst he
      cases left with
      | nil => cases ha
      | cons e left => exact ha

theorem pieces_stretch {stretch more : List Char} (hm : Ended more)
    (h : ∀ c ∈ stretch, isWordChar c = true) :
    pieces (stretch ++ more) = stretchWords stretch ++ pieces more := by
  induction stretch using stretchWords.induct with
  | case1 => rw [stretchWords, List.nil_append, List.nil_append]
  | case2 c rest ih =>
    have first : FirstWord ((c :: rest).take (wordLength (c :: rest)))
        ((c :: rest).drop (wordLength (c :: rest))) :=
      firstWord_wordLength (h c List.mem_cons_self)
    have left := ih fun d hd => h d (List.mem_of_mem_drop hd)
    have whole := (first.isWordBefore hm).pieces
    rw [← List.append_assoc, List.take_append_drop, left] at whole
    rw [whole, stretchWords]
    rfl

theorem ended_dropWhile (text : List Char) : Ended (text.dropWhile isWordChar) :=
  fun _ hd => head?_dropWhile hd

/-- The words of the stretches of a text are the pieces that it is cut into. -/
theorem pieces_eq (text : List Char) : pieces text = (stretches text).flatMap stretchWords := by
  induction text using stretches.induct with
  | case1 => rw [stretches]; rfl
  | case2 c rest hc ih =>
    have stretch : ∀ d ∈ c :: rest.takeWhile isWordChar, isWordChar d = true :=
      List.forall_mem_cons.2 ⟨hc, fun d hd => List.mem_takeWhile_imp hd⟩
    rw [stretches, if_pos hc, List.flatMap_cons, ← ih,
      ← pieces_stretch (ended_dropWhile rest) stretch, List.cons_append, List.takeWhile_append_dropWhile]
  | case3 c rest hc ih =>
    rw [stretches, if_neg hc, ← ih, pieces_cons_of_not_word rest (Bool.eq_false_iff.2 hc)]

theorem words_eq_pieces (text : String) : words text = (pieces text.toList).map String.ofList := by
  rw [words, pieces_eq]

/-! ## Nothing is lost -/

theorem flatten_filter_not_isEmpty {α : Type} (parts : List (List α)) :
    (parts.filter (!·.isEmpty)).flatten = parts.flatten := by
  induction parts with
  | nil => rfl
  | cons part parts ih =>
    cases part with
    | nil => exact ih
    | cons a part => rw [List.filter_cons_of_pos rfl, List.flatten_cons, ih, List.flatten_cons]

/-- The pieces of a text, one behind the other, are its letters and digits. -/
theorem flatten_pieces (text : List Char) : (pieces text).flatten = text.filter isWordChar := by
  have parts (groups : List (List (Char × Option Char))) :
      (groups.map kept).flatten = kept groups.flatten := by
    simp only [kept, List.map_flatten, List.filter_flatten, List.map_map]
    rfl
  rw [pieces, flatten_filter_not_isEmpty, parts, List.flatten_splitBy, kept, map_followed]

/-- The words of a text are the pieces into which the local rule cuts it; one behind the other
they are its letters and digits. -/
theorem words_cut (text : String) :
    words text = (pieces text.toList).map String.ofList ∧
      String.join (words text) = String.ofList (text.toList.filter isWordChar) := by
  refine ⟨words_eq_pieces text, String.toList_inj.1 ?_⟩
  rw [words_eq_pieces, String.toList_join, List.flatMap_map, String.toList_ofList, ← flatten_pieces]
  simp only [String.toList_ofList, List.flatMap_id']

example : words "getHTTPServer2_x" = ["get", "HTTP", "Server", "2", "x"] := by decide +kernel

end ServiceModel.Naming
