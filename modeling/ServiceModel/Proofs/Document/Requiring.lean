/-
An object schema that requires its one property, written with the name of the property as a plain
scalar in both places: its tokens and its tree.
-/
import ServiceModel.Document.Read
import ServiceModel.Proofs.Yaml.ReadsPlain

namespace ServiceModel

open Text (Range Position)

namespace Yaml

open Lexer

/-! ## Tokens -/

/-- The lines of a mapping of words with a name, which is an item and a key in it. -/
def twiceNamed (kind object list fields text name : List Char) : List Char :=
  kind ++ ':' :: ' ' :: (object ++ '\n' :: (list ++ ':' :: '\n' :: '-' :: ' ' ::
    (name ++ '\n' :: (fields ++ ':' :: '\n' :: ' ' :: ' ' ::
      (name ++ ':' :: ' ' :: '\x7b' :: (kind ++ ':' :: ' ' :: (text ++ ['\x7d', '\n'])))))))

/-- The tokens of these lines. -/
def twiceNamedKinds (kind object list fields text name : List Char) : List TokenKind :=
  [.blockMapping, .key, plainKind kind, .value, plainKind object,
    .key, plainKind list, .value, .blockEntry, plainKind name,
    .key, plainKind fields, .value, .blockMapping, .key, plainKind name, .value,
    .openMapping, .key, plainKind kind, .value, plainKind text, .closeMapping,
    .blockEnd, .blockEnd, .textEnd]

variable {kind object list fields text name : List Char}

theorem IsWord.fills {word : List Char} (h : IsWord word) (rest : List Char) :
    Fills [] (word ++ rest) := by
  obtain ⟨c, more, rfl⟩ := List.exists_cons_of_ne_nil h.some
  refine fills_nil ?_ _
  rintro rfl
  exact absurd (h.letters _ List.mem_cons_self) (by decide)

theorem IsWord.halts {word : List Char} (h : IsWord word) (rest : List Char) :
    ∀ c ∈ (word ++ rest).head?, Halts c := by
  obtain ⟨c, more, rfl⟩ := List.exists_cons_of_ne_nil h.some
  rintro d ⟨⟩
  exact halts_of_starts (@startsPlain_alphanum true c (h.letters c List.mem_cons_self) [])

theorem space_fill : Fill [' '] := by decide

theorem line_fill : Fill ['\n'] := by decide

section

variable {l : Lexer} {column indent : Nat} {outer : List Nat} {kinds : List TokenKind}
  {rest : List Char}

/-- A key with a word as its value, on the first line of a mapping. -/
theorem first_passes
    (h : Rests l 1 (kind ++ ':' :: ' ' :: (object ++ '\n' :: rest)) [0] 0 kinds true)
    (hk : IsWord kind) (ho : IsWord object) (hr : ∀ c ∈ rest.head?, Halts c) :
    ∃ next, Leads l 3 next ∧ Rests next 1 rest [1, 0] 0
      (plainKind object :: .value :: plainKind kind :: .key :: .blockMapping :: kinds) true := by
  obtain ⟨l₁, c₁, at₁, leads₁, rests₁⟩ := @label_opens l 1 0 0 _ [] kind _ _ _ h
    (hk.before_colon _ _ rfl) (hk.fills _) (.inr (hk.unmarked _)) rfl hk.near (.inr rfl) rfl
    Nat.one_pos
  obtain ⟨l₂, c₂, -, leads₂, rests₂⟩ := @item_passes l₁ c₁ 0 1 _ ['\n'] [' '] object _ _ _ rests₁
    (ho.plainLine.before_line fun c hc => (hr c hc).imp_right And.left) (space_fill.fills _)
    (.inr (Nat.lt_succ_of_le at₁)) (.inr (ho.unmarked _)) line_fill hr
  exact ⟨l₂, leads₁.trans leads₂, rests₂⟩

/-- A key with a sequence of one plain scalar as its value. -/
theorem list_passes
    (h : Rests l 1 (list ++ ':' :: '\n' :: '-' :: ' ' :: (name ++ '\n' :: rest)) (1 :: outer) 0
      kinds true)
    (hl : IsWord list) (hn : PlainLine name) (hr : ∀ c ∈ rest.head?, Halts c) :
    ∃ next, Leads l 4 next ∧ Rests next 1 rest (1 :: outer) 0
      (plainKind name :: .blockEntry :: .value :: plainKind list :: .key :: kinds) true := by
  obtain ⟨l₁, c₁, -, leads₁, rests₁⟩ := @label_goes l 1 0 1 _ [] list _ _ _ h
    (hl.before_colon _ _ rfl) (hl.fills _) (.inr (hl.unmarked _)) rfl hl.near (.inr rfl) (.inr rfl)
  obtain ⟨l₂, c₂, at₂, leads₂, rests₂⟩ := @entry_passes l₁ c₁ 1 _ ['\n'] _ _ _ rests₁
    (line_fill.fills _) rfl rfl rfl
  have below : 1 < c₂ + 1 := Nat.lt_succ_of_le at₂
  obtain ⟨l₃, c₃, -, leads₃, rests₃⟩ := @item_passes l₂ c₂ 0 1 _ ['\n'] [' '] name _ _ _ rests₂
    (hn.before_line fun c hc => (hr c hc).imp_right And.left) (space_fill.fills _) (.inr below)
    (.inl (Nat.ne_of_gt below)) line_fill hr
  exact ⟨l₃, (leads₁.trans leads₂).trans leads₃, rests₃⟩

/-- A key with a mapping as its value, which starts with a plain scalar as a key. -/
theorem inner_passes
    (h : Rests l 1 (fields ++ ':' :: '\n' :: ' ' :: ' ' :: (name ++ ':' :: ' ' :: rest))
      (1 :: outer) 0 kinds true)
    (hf : IsWord fields) (hn : PlainLine name) (near : name.length ≤ 1024) :
    ∃ next column, 3 ≤ column ∧ Leads l 4 next ∧ Rests next column (' ' :: rest) (3 :: 1 :: outer) 0
      (.value :: plainKind name :: .key :: .blockMapping :: .value :: plainKind fields :: .key ::
        kinds) false := by
  obtain ⟨l₁, c₁, -, leads₁, rests₁⟩ := @label_goes l 1 0 1 _ [] fields _ _ _ h
    (hf.before_colon _ _ rfl) (hf.fills _) (.inr (hf.unmarked _)) rfl hf.near (.inr rfl) (.inr rfl)
  obtain ⟨l₂, c₂, at₂, leads₂, rests₂⟩ := @label_opens l₁ c₁ 0 1 _ ['\n', ' ', ' '] name _ _ _
    rests₁ (hn.before_colon (Nat.le_refl 1) rfl) (Fill.fills (by decide) _)
    (.inl (show 3 ≠ 1 by decide)) rfl near (.inr rfl) rfl (show 1 < 3 by decide)
  exact ⟨l₂, c₂, at₂, leads₁.trans leads₂, rests₂⟩

/-- A mapping of one word to another between braces. -/
theorem braces_pass
    (h : Rests l column (' ' :: '\x7b' :: (kind ++ ':' :: ' ' :: (text ++ '\x7d' :: rest)))
      (indent :: outer) 0 kinds false)
    (hi : indent ≤ column) (hk : IsWord kind) (ht : IsWord text) :
    ∃ next column, Leads l 5 next ∧ Rests next column rest (indent :: outer) 0
      (.closeMapping :: plainKind text :: .value :: plainKind kind :: .key :: .openMapping :: kinds)
        false := by
  have none : Fill [] := by decide
  have brace : ∀ c ∈ ('\x7d' :: rest).head?, Halts c := by
    rintro c ⟨⟩
    decide
  obtain ⟨l₁, c₁, leads₁, rests₁⟩ := @brace_opens l column 0 indent _ [' '] _ _ _ h
    (space_fill.fills _) (.inr (Nat.lt_succ_of_le hi))
  obtain ⟨l₂, c₂, -, leads₂, rests₂⟩ := @label_goes l₁ c₁ 1 indent _ [] kind _ _ _ rests₁
    (hk.before_colon _ _ rfl) (hk.fills _) (.inr (hk.unmarked _)) rfl hk.near (.inr rfl)
    (.inl Nat.one_ne_zero)
  obtain ⟨l₃, c₃, -, leads₃, rests₃⟩ := @item_passes l₂ c₂ 1 indent _ [] [' '] text _ _ _ rests₂
    (ht.before_brace _ _) (space_fill.fills _) (.inl Nat.one_ne_zero) (.inr (ht.unmarked _)) none
    brace
  obtain ⟨l₄, c₄, leads₄, rests₄⟩ := @brace_closes l₃ _ 0 indent _ [] _ _ _ rests₃
    (fills_nil (by decide) _)
  exact ⟨l₄, c₄, ((leads₁.trans leads₂).trans leads₃).trans leads₄, rests₄⟩

end

/-- A name that is one plain scalar is one token in both places. -/
theorem ofText_twiceNamed (hk : IsWord kind) (ho : IsWord object) (hl : IsWord list)
    (hf : IsWord fields) (ht : IsWord text) (hn : PlainLine name) (near : name.length ≤ 1024) :
    (Token.ofText (twiceNamed kind object list fields text name)).map (·.kind) =
      twiceNamedKinds kind object list fields text name := by
  let lines := twiceNamed kind object list fields text name
  obtain ⟨l₁, leads₁, rests₁⟩ := first_passes (start_rests lines) hk ho (hl.halts _)
  obtain ⟨l₂, leads₂, rests₂⟩ := list_passes rests₁ hl hn (hf.halts _)
  obtain ⟨l₃, column, beyond, leads₃, rests₃⟩ := inner_passes rests₂ hf hn near
  obtain ⟨l₄, last, leads₄, rests₄⟩ := braces_pass rests₃ beyond hk ht
  have closed := @run_closed l₄ last ['\n'] _ _ [3] [1] rests₄ line_fill
    (List.forall_mem_singleton.2 (show 1 < 3 by decide))
    (List.forall_mem_singleton.2 ⟨Nat.one_pos, Nat.le_refl 1⟩)
  have leads := ((leads₁.trans leads₂).trans leads₃).trans leads₄
  obtain ⟨fuel, enough⟩ : ∃ fuel, lines.length + 2 = fuel + 1 + 16 := by
    refine ⟨lines.length - 15, ?_⟩
    simp only [lines, twiceNamed, List.length_append, List.length_cons, List.length_nil]
    omega
  rw [Token.ofText, enough, leads, closed]
  rfl

/-! ## Nodes -/

/-- Tokens of these kinds, at places that are given by number. -/
def placed (start stop : Nat → Position) (kinds : List TokenKind) : List Token :=
  kinds.zipIdx.map fun numbered => ⟨numbered.1, start numbered.2, stop numbered.2⟩

theorem exists_placed (tokens : List Token) :
    ∃ start stop, tokens = placed start stop (tokens.map (·.kind)) := by
  refine ⟨fun i => (tokens[i]?.map Token.start).getD ⟨0, 0, 0⟩,
    fun i => (tokens[i]?.map Token.stop).getD ⟨0, 0, 0⟩, ?_⟩
  refine List.ext_getElem (by simp [placed]) fun i hi _ => ?_
  simp [placed, hi]

/-- The node of these lines, the parts of which have the given spans. -/
def twiceNamedNode (kind object list fields text name : List Char) (range : Nat → Range) : Node :=
  let plain (text : List Char) (i : Nat) : Node := .scalar (String.ofList text) .byText (range i)
  .mapping [(plain kind 0, plain object 1), (plain list 2, .sequence [plain name 3] (range 4)),
    (plain fields 5, .mapping
      [(plain name 6, .mapping [(plain kind 7, plain text 8)] (range 9))] (range 10))] (range 11)

/-- The tokens of these lines are those of one node, wherever they stand. -/
theorem ofTokens_twiceNamed (start stop : Nat → Position)
    (kind object list fields text name : List Char) :
    ∃ range, Node.ofTokens (placed start stop
        (twiceNamedKinds kind object list fields text name)) =
      .ok (some (twiceNamedNode kind object list fields text name range)) := by
  exact ⟨fun i => [(⟨start 2, stop 2⟩ : Range), ⟨start 4, stop 4⟩, ⟨start 6, stop 6⟩,
    ⟨start 9, stop 9⟩, ⟨start 8, start 10⟩, ⟨start 11, stop 11⟩, ⟨start 15, stop 15⟩,
    ⟨start 19, stop 19⟩, ⟨start 21, stop 21⟩, ⟨start 17, stop 22⟩, ⟨start 13, stop 23⟩,
    ⟨start 0, stop 24⟩].getD i ⟨start 0, stop 0⟩, rfl⟩

end Yaml

/-! ## Schemas -/

open Yaml

/-- The lines of an object schema that requires its one property, whose name is written as it
stands in both places. -/
def requiringText (name : String) : String :=
  "type: object\nrequired:\n- " ++ name ++ "\nproperties:\n  " ++ name ++
    ": \x7btype: string\x7d\n"

/-- The tree of these lines, if the item of the array is the given value. -/
def requiringNode (name : String) (value : Primitive) (range : Nat → Range) : Node :=
  .object [(⟨"type", range 0⟩, .literal ⟨.text "object", range 1⟩),
    (⟨"required", range 2⟩, .array [.literal ⟨value, range 3⟩] (range 4)),
    (⟨"properties", range 5⟩, .object [(⟨name, range 6⟩,
      .object [(⟨"type", range 7⟩, .literal ⟨.text "string", range 8⟩)] (range 9))] (range 10))]
    (range 11)

/-- The characters of these lines. -/
def requiringLines (name : List Char) : List Char :=
  twiceNamed "type".toList "object".toList "required".toList "properties".toList "string".toList
    name

theorem requiringLines_eq (name : List Char) : requiringLines name =
    "type: object\nrequired:\n- ".toList ++ (name ++ ("\nproperties:\n  ".toList ++
      (name ++ ": \x7btype: string\x7d\n".toList))) := rfl

theorem requiringText_toList (name : String) :
    (requiringText name).toList = requiringLines name.toList := by
  unfold requiringText
  rw [String.toList_append, String.toList_append, String.toList_append, String.toList_append,
    List.append_assoc, List.append_assoc, List.append_assoc]
  rfl

theorem requiringLines_allowed {name : List Char} (h : ∀ c ∈ name, isAllowed c = true) :
    (requiringLines name).all isAllowed = true := by
  have first : "type: object\nrequired:\n- ".toList.all isAllowed = true := by decide
  have second : "\nproperties:\n  ".toList.all isAllowed = true := by decide
  have last : ": \x7btype: string\x7d\n".toList.all isAllowed = true := by decide
  rw [requiringLines_eq, List.all_append, List.all_append, List.all_append, List.all_append, first,
    second, last, List.all_eq_true.2 h]
  rfl

/-- The tokens of these lines are those of one node. -/
theorem requiringLines_node {name : List Char} (h : ReadsPlain name) : ∃ range,
    Yaml.Node.ofTokens (Token.ofText (requiringLines name)) =
      .ok (some (twiceNamedNode "type".toList "object".toList "required".toList
        "properties".toList "string".toList name range)) := by
  have word {text : List Char} (hl : text.all Char.isAlphanum = true) (hs : text ≠ [])
      (hn : text.length ≤ 1024) : IsWord text := ⟨List.all_eq_true.1 hl, hs, hn⟩
  have kinds := @ofText_twiceNamed "type".toList "object".toList "required".toList
    "properties".toList "string".toList name (word (by decide) (by decide) (by decide))
    (word (by decide) (by decide) (by decide)) (word (by decide) (by decide) (by decide))
    (word (by decide) (by decide) (by decide)) (word (by decide) (by decide) (by decide))
    h.plainLine h.near
  obtain ⟨start, stop, tokens⟩ := exists_placed (Token.ofText (requiringLines name))
  rw [tokens, requiringLines, kinds]
  exact ofTokens_twiceNamed start stop _ _ _ _ _ _

/-- The item is typed, while the key is its text. -/
theorem read_requiringText {name : String} (h : ReadsPlain name.toList) : ∃ range : Nat → Range,
    Node.read (requiringText name) =
      match Scalar.ofText ((range 3).start.offset.toNat + 1) name.toList with
      | .ok value => .ok (requiringNode name value range)
      | .error fault => .error (.fault fault) := by
  obtain ⟨range, node⟩ := requiringLines_node h
  refine ⟨range, ?_⟩
  have kept : Node.untabbed (requiringLines name.toList) = requiringLines name.toList := rfl
  unfold Node.read
  rw [requiringText_toList, kept]
  dsimp only
  rw [requiringLines_allowed h.allowed, node]
  have object (mark : Nat) : Scalar.value mark .byText "object" = .ok (.text "object") := rfl
  have string (mark : Nat) : Scalar.value mark .byText "string" = .ok (.text "string") := rfl
  have item (mark : Nat) : Scalar.value mark .byText name = Scalar.ofText mark name.toList := rfl
  simp only [twiceNamedNode, Node.ofYaml, Node.ofItems, Node.ofEntries, String.ofList_toList,
    object, string, item]
  cases Scalar.ofText ((range 3).start.offset.toNat + 1) name.toList <;> rfl

end ServiceModel
