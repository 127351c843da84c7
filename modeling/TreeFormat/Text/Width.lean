import TreeFormat.Text.Emoji
import TreeFormat.Text.Ligature

/-!
# Width of text

The width of a text on a grid of cells is the sum of the widths of its
characters, except that some sequences of characters are drawn as one: a
carriage return with a line feed, emoji sequences, letters with a ligature, and
vowel signs that are a single sign in two parts.

`stringWidth` reads a text from its end.  What a character adds depends on the
characters after it, of which `Follower` keeps what matters.
-/

namespace TreeFormat.Text

/-- A sequence of pictures behind a joiner, as far as it was read.  It is one
picture with a picture before the joiner. -/
inductive Joined where
  | picture
  /-- The cap of a key. -/
  | keycap
  /-- The second half of a flag. -/
  | region
  /-- Whole flags. -/
  | flags
  /-- Whole flags and the second half of another. -/
  | flagsAndRegion
  /-- A number of letters at the end of a tag sequence. -/
  | tagLetters (count : Nat)
  /-- A number of digits in front of the letters of a tag sequence. -/
  | tagDigits (count : Nat)
  deriving DecidableEq, Repr

/-- What comes after a character, as far as it matters for its width. -/
inductive Shape where
  | plain
  | lineFeed
  /-- A letter that a character before it may be drawn together with.  The flag
  says whether there is a joiner in front of it. -/
  | letter (letter : Letter) (joiner : Bool)
  /-- A vowel sign of Kirat Rai that can be the second part of another. -/
  | vowelE
  /-- A vowel sign of Kirat Rai that can be the second part of a third. -/
  | vowelAi
  | picture
  /-- A skin tone. -/
  | modifier
  /-- A regional indicator. -/
  | region
  /-- Several regional indicators. -/
  | regions
  | joined (sequence : Joined)
  deriving DecidableEq, Repr

/-- What comes after a character: its shape, and the variation selectors in
front of it. -/
structure Follower where
  shape : Shape
  /-- Whether a selector asks for the picture style. -/
  asPicture : Bool := false
  /-- Whether a selector asks for the text style. -/
  asText : Bool := false
  /-- Whether a selector asks for the wide style of a quotation mark. -/
  asWide : Bool := false
  deriving DecidableEq, Repr

namespace Follower

/-- A follower without selectors in front of it. -/
def ofShape (shape : Shape) : Follower where
  shape := shape

/-- The follower that a character is by itself. -/
def ofChar (c : Char) : Follower :=
  if c.toNat = 0xFE0F then ⟨.plain, true, false, false⟩
  else if c.toNat = 0xFE0E then ⟨.plain, false, true, false⟩
  else if c.toNat = 0xFE01 then ⟨.plain, false, false, true⟩
  else if isRegional c then ofShape .region
  else if isEmojiModifier c then ofShape .modifier
  else if isPicture c then ofShape .picture
  else if c.toNat = 0x16D67 then ofShape .vowelE
  else if c.toNat = 0x16D68 then ofShape .vowelAi
  else
    match Letter.ofChar? c with
    | some letter => ofShape (.letter letter false)
    | none => ofShape .plain

/-- Whether the follower is a letter; selectors do not hide it. -/
def isLetter (follower : Follower) : Bool :=
  match follower.shape with
  | .letter _ _ => true
  | _ => false

/-- Whether the follower is a joiner with a picture or a key cap behind it. -/
def isJoined (follower : Follower) : Bool :=
  follower.shape = .joined .picture || follower.shape = .joined .keycap

/-- The follower with a selector for the picture style in front of it. -/
def selectPicture (follower : Follower) : Follower :=
  if follower.isLetter then { follower with asPicture := true }
  else if follower.isJoined then ⟨follower.shape, true, false, false⟩
  else ⟨.plain, true, false, false⟩

/-- The follower with a selector for the text style in front of it. -/
def selectText (follower : Follower) : Follower :=
  if follower.isLetter then { follower with asText := true } else ⟨.plain, false, true, false⟩

/-- The follower with a selector for the wide style in front of it. -/
def selectWide (follower : Follower) : Follower :=
  if follower.isLetter then { follower with asWide := true } else ⟨.plain, false, false, true⟩

/-- The follower for a character that a selector for the picture style does not
apply to. -/
def ignorePicture (follower : Follower) : Follower :=
  if follower.isLetter then { follower with asPicture := false }
  else if follower.asPicture then ofShape .plain
  else follower

end Follower

/-- The cells that a character adds, and the follower that it is to the
character before it. -/
structure Step where
  cells : Int
  follower : Follower
  deriving DecidableEq, Repr

namespace Step

/-- A step to a shape without selectors. -/
def into (cells : Int) (shape : Shape) : Step where
  cells := cells
  follower := .ofShape shape

/-- The step of a character by itself. -/
def alone (c : Char) : Step where
  cells := charWidth c
  follower := .ofChar c

end Step

/-- Whether a character is a quotation mark that has a wide style. -/
def isQuotationMark (c : Char) : Bool :=
  c.toNat = 0x2018 || c.toNat = 0x2019 || c.toNat = 0x201C || c.toNat = 0x201D

/-- The step of a character in front of a joined sequence, if it belongs to the
sequence. -/
def stepJoined? (c : Char) : Joined → Option Step
  | .picture =>
    if c.toNat = 0x20E3 then some (.into 0 (.joined .keycap))
    else if isRegional c then some (.into 1 (.joined .region))
    else if isEmojiModifier c then some (.into 0 .modifier)
    else if c.toNat = 0xE007F then some (.into 0 (.joined (.tagLetters 0)))
    else if isPicture c then some (.into 0 .picture)
    else none
  | .keycap => none
  | .region => if isRegional c then some (.into (-1) (.joined .flags)) else none
  | .flags =>
    if isRegional c then some (.into 3 (.joined .flagsAndRegion))
    else if c.toNat = 0x200D then some (.into 0 (.joined .picture))
    else none
  | .flagsAndRegion =>
    if isRegional c then some (.into (-1) (.joined .flags))
    else if c.toNat = 0x200D then some (.into 0 (.joined .picture))
    else none
  | .tagLetters count =>
    if isTagLetter c ∧ count < 6 then some (.into 0 (.joined (.tagLetters (count + 1))))
    else if isTagDigit c ∧ count < 5 then some (.into 0 (.joined (.tagDigits 1)))
    else if c.toNat = 0x1F3F4 ∧ 3 ≤ count then some (.into 0 .picture)
    else none
  | .tagDigits count =>
    if isTagDigit c ∧ count < 3 then some (.into 0 (.joined (.tagDigits (count + 1))))
    else if c.toNat = 0x1F3F4 ∧ count = 3 then some (.into 0 .picture)
    else none

/-- The step of a character in front of a shape, if the two are drawn as one. -/
def stepShape? (c : Char) : Shape → Option Step
  | .plain | .lineFeed => none
  | .letter letter joiner =>
    match letter.join? joiner c with
    | some (cells, some made) => some (.into cells (.letter made true))
    | some (cells, none) => some (.into cells .plain)
    | none => if letter.seesThrough c then some (.into 0 (.letter letter joiner)) else none
  | .vowelE =>
    if c.toNat = 0x16D63 ∨ c.toNat = 0x16D69 then some (.into 0 .plain)
    else if c.toNat = 0x16D67 then some (.into 0 .vowelAi)
    else if c.toNat = 0x16D68 then some (.into 1 .vowelE)
    else none
  | .vowelAi => if c.toNat = 0x16D63 then some (.into 0 .plain) else none
  | .picture => if c.toNat = 0x200D then some (.into 0 (.joined .picture)) else none
  | .modifier =>
    if emojiModifierBase.contains c then some (.into 0 .picture)
    else if c.toNat = 0x200D then some (.into 0 (.joined .picture))
    else none
  | .region => if isRegional c then some (.into 1 .regions) else none
  | .regions =>
    if isRegional c then some (.into 1 .regions)
    else if c.toNat = 0x200D then some (.into 0 (.joined .picture))
    else none
  | .joined sequence => stepJoined? c sequence

/-- The shape with a joiner in front of it, if it is a letter that a joiner makes
a difference to. -/
def Shape.withJoiner? : Shape → Option Shape
  | .letter .alef _ => none
  | .letter first _ => some (.letter first true)
  | _ => none

/-- The step of a character that is not in Latin 1, in front of a follower. -/
def stepAfter (c : Char) (follower : Follower) : Step :=
  if c.toNat = 0xFE0F then ⟨0, follower.selectPicture⟩
  else if c.toNat = 0xFE0E then ⟨0, follower.selectText⟩
  else if c.toNat = 0xFE01 then ⟨0, follower.selectWide⟩
  else if follower.asText ∧ isNarrowAsText c then .into 1 .plain
  else if follower.asWide ∧ isQuotationMark c then .into 2 .plain
  else
    match (if c.toNat = 0x200D then follower.shape.withJoiner? else none) with
    | some shape => .into 0 shape
    | none => (stepShape? c follower.shape).getD (.alone c)

/-- The step of a character in front of a follower. -/
def step (c : Char) (follower : Follower) : Step :=
  if follower.asPicture ∧ styledEmoji.contains c then
    .into (if follower.isJoined then 0 else 2) .picture
  else
    let follower := follower.ignorePicture
    if c = '\n' then .into 1 .lineFeed
    else if c = '\r' ∧ follower.shape = .lineFeed then .into 0 .plain
    else if c.toNat ≤ 0xA0 then .into 1 .plain
    else stepAfter c follower

/-- The cells of a text, and what it is to a character before it. -/
def readWidth (text : List Char) : Step :=
  text.foldr (fun c rest =>
    let next := step c rest.follower
    ⟨rest.cells + next.cells, next.follower⟩) (.into 0 .plain)

/-- The number of cells of a text.  Plain ASCII text takes one for every
character. -/
def stringWidth (text : String) : Nat :=
  let chars := text.toList
  if chars.all fun c => c.toNat < 0x80 then chars.length else (readWidth chars).cells.toNat

end TreeFormat.Text
