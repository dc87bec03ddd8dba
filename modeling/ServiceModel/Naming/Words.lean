/-
Splitting an identifier-like text into words, and spelling words as camel case, Pascal case and
kebab case. Everything but the letters and digits of the basic alphabet separates words; inside a
stretch of letters and digits a word is a run of digits, a run of lower case letters with at most
one capital in front, or a run of capitals that leaves its last letter to the lower case letters
after it.
-/
namespace ServiceModel.Naming

/-- The characters that words are made of. -/
def isWordChar (c : Char) : Bool := c.isAlphanum

/-- The length of the run at the head of the text whose members satisfy `p`. -/
def runLength (p : Char → Bool) (text : List Char) : Nat := (text.takeWhile p).length

/-- The length of the first word of a stretch of letters and digits. -/
def wordLength : List Char → Nat
  | [] => 0
  | c :: rest =>
    if c.isDigit then 1 + runLength Char.isDigit rest
    else if c.isLower then 1 + runLength Char.isLower rest
    else
      let capitals := runLength Char.isUpper rest
      match rest.drop capitals with
      | d :: _ =>
        if d.isLower then
          if capitals = 0 then 1 + runLength Char.isLower rest else capitals
        else 1 + capitals
      | [] => 1 + capitals

theorem wordLength_pos (c : Char) (rest : List Char) : 0 < wordLength (c :: rest) := by
  simp only [wordLength]
  split
  · omega
  · split
    · omega
    · split
      · split
        · split <;> omega
        · omega
      · omega

/-- The words of a stretch of letters and digits. -/
def stretchWords (stretch : List Char) : List (List Char) :=
  match stretch with
  | [] => []
  | c :: rest =>
    (c :: rest).take (wordLength (c :: rest)) ::
      stretchWords ((c :: rest).drop (wordLength (c :: rest)))
termination_by stretch.length
decreasing_by
  have := wordLength_pos c rest
  simp only [List.length_drop, List.length_cons]
  omega

/-- The longest stretches of letters and digits, in order. -/
def stretches (text : List Char) : List (List Char) :=
  match text with
  | [] => []
  | c :: rest =>
    if isWordChar c then
      (c :: rest.takeWhile isWordChar) :: stretches (rest.dropWhile isWordChar)
    else stretches rest
termination_by text.length
decreasing_by
  · have := (List.dropWhile_sublist isWordChar (l := rest)).length_le
    simp only [List.length_cons]
    omega
  · simp

/-- The words of a text. -/
def words (text : String) : List String :=
  ((stretches text.toList).flatMap stretchWords).map String.ofList

/-- A word in lower case. -/
def lowerWord (word : String) : String := String.ofList (word.toList.map Char.toLower)

/-- A word with a capital first letter and the others in lower case. -/
def capitalize (word : String) : String :=
  match word.toList with
  | [] => ""
  | c :: rest => String.ofList (c.toUpper :: rest.map Char.toLower)

/-- `widget_status` as `widgetStatus`. -/
def camel (text : String) : String :=
  match words text with
  | [] => ""
  | first :: others => lowerWord first ++ String.join (others.map capitalize)

/-- `widget status` as `WidgetStatus`. -/
def pascal (text : String) : String := String.join ((words text).map capitalize)

/-- `widgetStatus` as `widget-status`. -/
def kebab (text : String) : String := String.intercalate "-" ((words text).map lowerWord)

end ServiceModel.Naming
