/-
The tokens of a text of JSON, by induction on the tree that it is written from: brackets, braces
and commas are tokens of their own, each value is one, and a label is three.
-/
import ServiceModel.Proofs.Yaml.Lexing
import ServiceModel.Proofs.Yaml.Numbers

namespace ServiceModel

namespace Notation

open Yaml (TokenKind)

/-! ## Kinds -/

/-- The tokens of a label. -/
def Label.kinds (l : Label) : List TokenKind := [.key, .scalar (textOf l.name) .marked, .value]

mutual

/-- The kinds of the tokens of a value. -/
def Tree.kinds : Tree → List TokenKind
  | .word value? => [.scalar (String.ofList (spelling value?)) .plain]
  | .number negative size => [.scalar (String.ofList (sign negative ++ size.text)) .plain]
  | .string pieces => [.scalar (textOf pieces) .marked]
  | .emptyArray _ => [.openSequence, .closeSequence]
  | .array _ first rest => .openSequence :: (first.kinds ++ rest.kinds)
  | .emptyObject _ => [.openMapping, .closeMapping]
  | .object _ label first rest => .openMapping :: (label.kinds ++ (first.kinds ++ rest.kinds))

def Items.kinds : Items → List TokenKind
  | .stop _ => [.closeSequence]
  | .more _ _ item rest => .flowEntry :: (item.kinds ++ rest.kinds)

def Members.kinds : Members → List TokenKind
  | .stop _ => [.closeMapping]
  | .more _ _ label item rest => .flowEntry :: (label.kinds ++ (item.kinds ++ rest.kinds))

end

end Notation

namespace Yaml

open Notation (Tree Items Members Label textOf quote)

/-! ## Ends of items -/

theorem EndsItem.space {flow : Bool} {space rest : List Char} (hs : ∀ c ∈ space, isGap c = true)
    (h : EndsItem flow rest) : EndsItem flow (space ++ rest) := by
  unfold EndsItem
  rw [List.dropWhile_append_of_pos hs]
  exact h

theorem EndsItem.mark {c : Char} {rest : List Char} (hc : c = ',' ∨ c = ']' ∨ c = '}') :
    EndsItem true (c :: rest) := by
  refine .inr ⟨rfl, c, rest, ?_, hc⟩
  rw [List.dropWhile_cons_of_neg]
  rcases hc with rfl | rfl | rfl <;> decide

/-- What follows an item ends it. -/
theorem endsItem_items {items : Items} (hs : items.Spelled) (rest : List Char) :
    EndsItem true (items.write ' ' ++ rest) := by
  cases items with
  | stop space =>
    rw [Items.write, List.append_assoc]
    exact (EndsItem.mark (.inr (.inl rfl))).space (Lexer.blank_gap hs)
  | more space lead item more =>
    rw [Items.write, List.append_assoc]
    exact (EndsItem.mark (.inl rfl)).space (Lexer.blank_gap hs.1)

theorem endsItem_members {members : Members} (hs : members.Spelled) (rest : List Char) :
    EndsItem true (members.write ' ' ++ rest) := by
  cases members with
  | stop space =>
    rw [Members.write, List.append_assoc]
    exact (EndsItem.mark (.inr (.inr rfl))).space (Lexer.blank_gap hs)
  | more space lead label item more =>
    rw [Members.write, List.append_assoc]
    exact (EndsItem.mark (.inl rfl)).space (Lexer.blank_gap hs.1)

namespace Lexer

variable {l : Lexer} {depth : Nat} {fresh : Bool} {rest : List Char} {kinds : List TokenKind}

/-! ## Single tokens -/

theorem open_passes {c : Char} {kind : TokenKind}
    (hc : c = '[' ∧ kind = .openSequence ∨ c = '{' ∧ kind = .openMapping)
    (h : At l depth fresh (c :: rest) kinds) :
    Passes l [c] (depth + 1) true rest (kind :: kinds) := by
  have starts : Starts c := by rcases hc with ⟨rfl, -⟩ | ⟨rfl, -⟩ <;> decide
  refine Passes.token starts (by rcases hc with ⟨-, rfl⟩ | ⟨-, rfl⟩ <;> nofun) h
    fun {l} ready _ => ?_
  obtain ⟨next, opened, ready, allowed⟩ := openFlow_ready ready kind
  refine ⟨next, ?_, ⟨_, ready, rfl⟩, fun _ => allowed⟩
  rw [← opened]
  rcases hc with ⟨rfl, rfl⟩ | ⟨rfl, rfl⟩ <;> simp [tokenAt, atDocumentMark]

theorem close_passes {c : Char} {kind : TokenKind}
    (hc : c = ']' ∧ kind = .closeSequence ∨ c = '}' ∧ kind = .closeMapping)
    (h : At l (depth + 1) fresh (c :: rest) kinds) :
    Passes l [c] depth false rest (kind :: kinds) := by
  have starts : Starts c := by rcases hc with ⟨rfl, -⟩ | ⟨rfl, -⟩ <;> decide
  refine Passes.token starts (by rcases hc with ⟨-, rfl⟩ | ⟨-, rfl⟩ <;> nofun) h
    fun {l} ready _ => ?_
  obtain ⟨next, closed, ready⟩ := closeFlow_ready ready kind
  refine ⟨next, ?_, ⟨_, ready, rfl⟩, nofun⟩
  rw [← closed]
  rcases hc with ⟨rfl, rfl⟩ | ⟨rfl, rfl⟩ <;> simp [tokenAt, atDocumentMark]

theorem comma_passes (h : At l depth fresh (',' :: rest) kinds) :
    Passes l [','] depth true rest (.flowEntry :: kinds) := by
  refine Passes.token (by decide) nofun h fun {l} ready _ => ?_
  obtain ⟨next, passed, ready, allowed⟩ := flowEntry_ready ready
  refine ⟨next, ?_, ⟨_, ready, rfl⟩, fun _ => allowed⟩
  rw [← passed]
  simp [tokenAt, atDocumentMark]

theorem string_passes {pieces : List Notation.Piece} (hs : ∀ piece ∈ pieces, piece.Spelled)
    (ha : ∀ piece ∈ pieces, piece.Admitted)
    (h : At l depth fresh (quote pieces ++ rest) kinds) :
    Passes l (quote pieces) depth false rest (.scalar (textOf pieces) .marked :: kinds) := by
  refine Passes.token (by decide) nofun h fun {l} ready _ => ?_
  obtain ⟨next, scanned, ready, -⟩ := quotedScalar_ready hs ha ready
  exact ⟨next, tokenAt_quote.trans scanned, ⟨_, ready, rfl⟩, nofun⟩

/-- A word of letters and digits, perhaps with a minus sign in front of a digit. -/
theorem word_passes {word : List Char} (hw : ∀ c ∈ word, isWordChar c = true)
    (hn : ∃ c more, word = c :: more ∧
      (c.isAlphanum = true ∨ c = '-' ∧ ∃ d ∈ more.head?, d.isDigit = true))
    (hr : EndsItem (depth != 0) rest) (h : At l depth fresh (word ++ rest) kinds) :
    Passes l word depth false rest (.scalar (String.ofList word) .plain :: kinds) := by
  obtain ⟨c, more, rfl, start⟩ := hn
  have char := hw c List.mem_cons_self
  have starts : Starts c :=
    ⟨by
      have space : c ≠ ' ' := wordChar_ne char (by decide)
      have feed : c ≠ '\n' := wordChar_ne char (by decide)
      have carriage : c ≠ '\r' := wordChar_ne char (by decide)
      simp [isGap, space, feed, carriage],
    isBreak_wordChar char, wordChar_ne char (by decide), wordChar_ne char (by decide)⟩
  refine Passes.token starts (by simp) h fun {l} ready _ => ?_
  obtain ⟨next, scanned, passed⟩ := plainScalar_ready hw hr ready
  refine ⟨next, Eq.trans ?_ scanned, passed, by simp⟩
  rcases start with alphanum | ⟨rfl, d, hd, digit⟩
  · exact tokenAt_alphanum alphanum
  · obtain ⟨tail, rfl⟩ : ∃ tail, more = d :: tail := by
      cases more with
      | nil => cases hd
      | cons e tail =>
        cases hd
        exact ⟨tail, rfl⟩
    exact tokenAt_minus digit

/-! ## Values -/

theorem spelling_word (value? : Option Bool) :
    (∀ c ∈ Notation.spelling value?, isWordChar c = true) ∧
      ∃ c more, Notation.spelling value? = c :: more ∧ c.isAlphanum = true := by
  rcases value? with _ | _ | _
  · exact ⟨List.all_eq_true.1 (by decide), 'n', _, rfl, by decide⟩
  · exact ⟨List.all_eq_true.1 (by decide), 'f', _, rfl, by decide⟩
  · exact ⟨List.all_eq_true.1 (by decide), 't', _, rfl, by decide⟩

theorem number_word {size : Double.Decimal} (h : size.Strict) (negative : Bool) :
    (∀ c ∈ Notation.sign negative ++ size.text, isWordChar c = true) ∧
      ∃ c more, Notation.sign negative ++ size.text = c :: more ∧
        (c.isAlphanum = true ∨ c = '-' ∧ ∃ d ∈ more.head?, d.isDigit = true) := by
  have digitWord {c : Char} (digit : c.isDigit = true) : c.isAlphanum = true := by
    rw [Char.isAlphanum, digit, Bool.or_true]
  obtain ⟨c, more, shape, digit⟩ := Scalar.strict_head h
  constructor
  · intro c hc
    rcases List.mem_append.1 hc with hc | hc
    · cases negative
      · cases hc
      · rw [List.mem_singleton.1 hc]
        decide
    · rcases h.spelled.chars c hc with digit | mark
      · rw [isWordChar, digitWord digit]
        rfl
      · have marks : ∀ c ∈ ['.', 'e', 'E', '-', '+'], isWordChar c = true :=
          List.all_eq_true.1 (by decide)
        exact marks c (List.contains_iff_mem.1 mark)
  · cases negative with
    | false => exact ⟨c, more, shape, .inl (digitWord digit)⟩
    | true => exact ⟨'-', size.text, rfl, .inr ⟨rfl, c, by rw [shape]; rfl, digit⟩⟩

mutual

/-- A value is passed with its tokens. -/
theorem tree_passes : ∀ {tree : Tree}, tree.Spelled → tree.Admitted →
    ∀ {l : Lexer} (depth : Nat) {fresh : Bool} {rest : List Char} {kinds : List TokenKind},
      EndsItem (depth != 0) rest → At l depth fresh (tree.write ' ' ++ rest) kinds →
        Passes l (tree.write ' ') depth false rest (tree.kinds.reverse ++ kinds)
  | .word value?, _, _, l, depth, fresh, rest, kinds, hr, h => by
    obtain ⟨chars, c, more, shape, start⟩ := spelling_word value?
    exact word_passes chars ⟨c, more, shape, .inl start⟩ hr h
  | .number negative size, hs, _, l, depth, fresh, rest, kinds, hr, h => by
    obtain ⟨chars, start⟩ := number_word hs negative
    exact word_passes chars start hr h
  | .string pieces, hs, ha, l, depth, fresh, rest, kinds, _, h => string_passes hs ha h
  | .emptyArray inside, hs, _, l, depth, fresh, rest, kinds, _, h => by
    rw [Tree.write, List.cons_append, List.append_assoc] at h
    refine (open_passes (.inl ⟨rfl, rfl⟩) h).append fun h => ?_
    refine (Passes.space (blank_gap hs) h).append fun h => ?_
    exact close_passes (.inl ⟨rfl, rfl⟩) h
  | .emptyObject inside, hs, _, l, depth, fresh, rest, kinds, _, h => by
    rw [Tree.write, List.cons_append, List.append_assoc] at h
    refine (open_passes (.inr ⟨rfl, rfl⟩) h).append fun h => ?_
    refine (Passes.space (blank_gap hs) h).append fun h => ?_
    exact close_passes (.inr ⟨rfl, rfl⟩) h
  | .array lead first items, hs, ha, l, depth, fresh, rest, kinds, _, h => by
    obtain ⟨white, spelled, others⟩ := hs
    rw [Tree.write, List.cons_append, List.append_assoc, List.append_assoc] at h
    have kinds' : (Tree.array lead first items).kinds.reverse ++ kinds =
        items.kinds.reverse ++ (first.kinds.reverse ++ (.openSequence :: kinds)) := by
      simp [Tree.kinds]
    rw [kinds']
    refine (open_passes (.inl ⟨rfl, rfl⟩) h).append fun h => ?_
    refine (Passes.space (blank_gap white) h).append fun h => ?_
    refine (tree_passes spelled ha.1 (depth + 1) (endsItem_items others rest) h).append fun h => ?_
    exact items_passes others ha.2 h
  | .object lead label first members, hs, ha, l, depth, fresh, rest, kinds, _, h => by
    obtain ⟨white, named, spelled, others⟩ := hs
    rw [Tree.write, List.cons_append, List.append_assoc, List.append_assoc, List.append_assoc] at h
    have kinds' : (Tree.object lead label first members).kinds.reverse ++ kinds =
        members.kinds.reverse ++ (first.kinds.reverse ++
          (.value :: .scalar (textOf label.name) .marked :: .key :: .openMapping :: kinds)) := by
      simp [Tree.kinds, Label.kinds]
    rw [kinds']
    refine (open_passes (.inr ⟨rfl, rfl⟩) h).append fun h => ?_
    refine (Passes.space (blank_gap white) h).append fun h => ?_
    refine (label_passes named ha.1 h).append fun h => ?_
    refine (tree_passes spelled ha.2.1 (depth + 1)
      (endsItem_members others rest) h).append fun h => ?_
    exact members_passes others ha.2.2 h

theorem items_passes : ∀ {items : Items}, items.Spelled → items.Admitted →
    ∀ {l : Lexer} {depth : Nat} {rest : List Char} {kinds : List TokenKind},
      At l (depth + 1) false (items.write ' ' ++ rest) kinds →
        Passes l (items.write ' ') depth false rest (items.kinds.reverse ++ kinds)
  | .stop space, hs, _, l, depth, rest, kinds, h => by
    rw [Items.write, List.append_assoc] at h
    refine (Passes.space (blank_gap hs) h).append fun h => ?_
    exact close_passes (.inl ⟨rfl, rfl⟩) h
  | .more space lead item others, hs, ha, l, depth, rest, kinds, h => by
    obtain ⟨white, white', spelled, more⟩ := hs
    rw [Items.write, List.append_assoc, List.cons_append, List.append_assoc, List.append_assoc] at h
    have kinds' : (Items.more space lead item others).kinds.reverse ++ kinds =
        others.kinds.reverse ++ (item.kinds.reverse ++ (.flowEntry :: kinds)) := by
      simp [Items.kinds]
    rw [kinds']
    refine (Passes.space (blank_gap white) h).append fun h => ?_
    refine (comma_passes h).append fun h => ?_
    refine (Passes.space (blank_gap white') h).append fun h => ?_
    refine (tree_passes spelled ha.1 (depth + 1) (endsItem_items more rest) h).append fun h => ?_
    exact items_passes more ha.2 h

theorem members_passes : ∀ {members : Members}, members.Spelled → members.Admitted →
    ∀ {l : Lexer} {depth : Nat} {rest : List Char} {kinds : List TokenKind},
      At l (depth + 1) false (members.write ' ' ++ rest) kinds →
        Passes l (members.write ' ') depth false rest (members.kinds.reverse ++ kinds)
  | .stop space, hs, _, l, depth, rest, kinds, h => by
    rw [Members.write, List.append_assoc] at h
    refine (Passes.space (blank_gap hs) h).append fun h => ?_
    exact close_passes (.inr ⟨rfl, rfl⟩) h
  | .more space lead label item others, hs, ha, l, depth, rest, kinds, h => by
    obtain ⟨white, white', named, spelled, more⟩ := hs
    rw [Members.write, List.append_assoc, List.cons_append, List.append_assoc, List.append_assoc,
      List.append_assoc] at h
    have kinds' : (Members.more space lead label item others).kinds.reverse ++ kinds =
        others.kinds.reverse ++ (item.kinds.reverse ++
          (.value :: .scalar (textOf label.name) .marked :: .key :: .flowEntry :: kinds)) := by
      simp [Members.kinds, Label.kinds]
    rw [kinds']
    refine (Passes.space (blank_gap white) h).append fun h => ?_
    refine (comma_passes h).append fun h => ?_
    refine (Passes.space (blank_gap white') h).append fun h => ?_
    refine (label_passes named ha.1 h).append fun h => ?_
    refine (tree_passes spelled ha.2.1 (depth + 1)
      (endsItem_members more rest) h).append fun h => ?_
    exact members_passes more ha.2.2 h

end

/-! ## Texts -/

/-- At the end of a text the lexer adds the token for it. -/
theorem run_textEnd {gap : List Char} (hg : ∀ c ∈ gap, isGap c = true)
    (h : Ready l 0 gap kinds) (fuel : Nat) :
    (l.run (fuel + 1)).map (·.kind) = (.textEnd :: kinds).reverse := by
  rw [← List.append_nil gap] at h
  have ended : ∀ c ∈ ([] : List Char).head?, Starts c := by simp
  have ready := gathered_ready hg ended h
  have step : l.step = .ok ({ l.gathered with key := none, keyAllowed := false }.pushHere
      .textEnd) := by
    rw [step_eq (dropStale_gathered h) (unwind_ready ready _), ready.rest]
    dsimp only
    unfold textEnd
    rw [unwind_ready ready, dropKey_ready ready]
    rfl
  rw [run, step]
  show (if (some (⟨.textEnd, l.gathered.cursor.position, l.gathered.cursor.position⟩ : Token)).any
      (·.kind == .textEnd) then _ else _ : List Token).map (·.kind) = _
  rw [Option.any_some, beq_self_eq_true, if_pos rfl, List.map_reverse]
  exact congrArg (fun kinds => (TokenKind.textEnd :: kinds).reverse) ready.kinds

end Lexer

/-- The tokens of a text of JSON are those of its value and the end of the text. -/
theorem Token.ofText_document {d : Notation.Document} (hs : d.Formed) (ha : d.root.Admitted) :
    (Token.ofText (d.write ' ')).map (·.kind) = d.root.kinds ++ [.textEnd] := by
  have start : Lexer.Ready (Lexer.start (d.write ' ')) 0 (d.write ' ') [] :=
    ⟨rfl, rfl, rfl, rfl, rfl, Nat.one_pos, rfl, by simp [Lexer.start]⟩
  have ends : EndsItem (0 != 0) (Notation.blank ' ' d.trail) :=
    .inl (List.dropWhile_eq_nil_iff.2 (Lexer.blank_gap hs.trail))
  have passes := (Lexer.Passes.space (Lexer.blank_gap hs.lead) start.at).append fun h =>
    Lexer.tree_passes hs.root ha 0 ends h
  obtain ⟨n, next, hn, leads, ⟨⟨here, ready, same⟩, -⟩⟩ := passes
  obtain ⟨gap, hg, split⟩ := Lexer.gap_split here
  rw [same, List.dropWhile_eq_nil_iff.2 (Lexer.blank_gap hs.trail), List.append_nil] at split
  subst split
  have fuel : ∃ fuel, (d.write ' ').length + 2 = fuel + 1 + n := by
    refine ⟨(d.write ' ').length + 1 - n, ?_⟩
    simp only [Notation.Document.write, List.length_append] at hn ⊢
    omega
  obtain ⟨fuel, hf⟩ := fuel
  rw [Token.ofText, hf, leads, Lexer.run_textEnd hg ready, List.append_nil, List.reverse_cons,
    List.reverse_reverse]

end Yaml

end ServiceModel
