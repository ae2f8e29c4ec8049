import ResourceLanguage.Text.WidthClass

/-!
The number of columns that a text takes on a terminal. A text is read from its end, since what
follows a character may make it part of a sequence that is shown as one sign.
-/

namespace ResourceLanguage.Text

/-- What a character may join with: the sign that begins right after it. -/
inductive NextSign where
  | other
  | lineFeed
  /-- An emoji. -/
  | emoji
  /-- A joiner and an emoji. -/
  | joinedEmoji
  /-- A skin tone. -/
  | skinTone
  /-- A regional indicator, or some. -/
  | indicator
  | indicators
  /-- Regional indicators whose last one has a joiner and an emoji after it. -/
  | firstJoinedIndicator
  | evenJoinedIndicators
  | oddJoinedIndicators
  /-- A letter of the alef group. -/
  | alef
  /-- A lamed, and a joiner with a lamed. -/
  | lamed
  | joinedLamed
  /-- A letter that may stand below another. -/
  | subscriptLetter
  /-- The second part of a tone letter. -/
  | toneLetter
  deriving DecidableEq, Repr

/-- How a variation selector wants the character before it. -/
inductive Presentation where
  | unchanged
  | asText
  | asEmoji
  deriving DecidableEq, Repr

/-- What stands to the right of a character. -/
structure RightContext where
  sign : NextSign
  presentation : Presentation
  deriving DecidableEq, Repr

namespace RightContext

/-- Nothing that the character could join with. -/
def neutral : RightContext := ⟨.other, .unchanged⟩

def of (sign : NextSign) : RightContext := ⟨sign, .unchanged⟩

end RightContext

def isRegionalIndicator (c : Char) : Bool := 0x1F1E6 ≤ c.toNat && c.toNat ≤ 0x1F1FF

def isSkinTone (c : Char) : Bool := 0x1F3FB ≤ c.toNat && c.toNat ≤ 0x1F3FF

/-- The digits, the number sign and the asterisk are emoji on demand, too. -/
def isTextEmoji (c : Char) : Bool :=
  c.isDigit || c = '#' || c = '*' || (!isAscii c && textEmojiTable.contains c)

def isEmoji (c : Char) : Bool := emojiTable.contains c

/-- Ideographs in a square are wide also when they are shown as text. -/
def isSquaredIdeograph (c : Char) : Bool := 0x1F200 ≤ c.toNat && c.toNat ≤ 0x1F2FF

/-- Characters of no width that do not part letters that join. -/
def joinsThrough (c : Char) : Bool := zeroWidthTable.contains c && !joinBreakTable.contains c

def isAlef (c : Char) : Bool :=
  CharTable.contains [(0x622, 0x623), (0x625, 0x625), (0x627, 0x627), (0x671, 0x673),
    (0x675, 0x675), (0x773, 0x774), (0x870, 0x882)] c

def isLam (c : Char) : Bool :=
  CharTable.contains [(0x644, 0x644), (0x6B5, 0x6B8), (0x76A, 0x76A), (0x8A6, 0x8A6),
    (0x8C7, 0x8C7)] c

def isSubscriptLetter (c : Char) : Bool :=
  CharTable.contains [(0x1780, 0x1782), (0x1784, 0x1787), (0x1789, 0x178C), (0x178E, 0x1793),
    (0x1795, 0x1798), (0x179B, 0x179D), (0x17A0, 0x17A0), (0x17A2, 0x17A2), (0x17A7, 0x17A7),
    (0x17AB, 0x17AC), (0x17AF, 0x17AF)] c

/-- The columns of a character by itself, and the sign that begins with it. -/
def standaloneWidth (c : Char) : Int × RightContext :=
  if isRegionalIndicator c then (1, .of .indicator)
  else if isSkinTone c then (2, .of .skinTone)
  else if isEmoji c then (2, .of .emoji)
  else if isAlef c then (1, .of .alef)
  else if c.toNat = 0x5DC then (1, .of .lamed)
  else if isSubscriptLetter c then (1, .of .subscriptLetter)
  else if c.toNat = 0x17D8 then (3, .neutral)
  else if c.toNat = 0xA4FC || c.toNat = 0xA4FD then (1, .of .toneLetter)
  else if c.toNat = 0xFE0F then (0, ⟨.other, .asEmoji⟩)
  else if c.toNat = 0xFE0E then (0, ⟨.other, .asText⟩)
  else if zeroWidthTable.contains c then (0, .neutral)
  else if wideTable.contains c then (2, .neutral)
  else (1, .neutral)

/-- The columns that a character adds to a sign after it, and the sign that begins with it, when
the two belong together. -/
def joinedWidth? (c : Char) (next : NextSign) : Option (Int × RightContext) :=
  let isJoiner : Bool := c.toNat = 0x200D
  match next with
  | .other | .lineFeed => none
  | .alef =>
      if isLam c then some (0, .neutral)
      else if joinsThrough c then some (0, .of .alef)
      else none
  | .lamed => if isJoiner then some (0, .of .joinedLamed) else none
  | .joinedLamed =>
      if isJoiner then some (0, .of .joinedLamed)
      else if c.toNat = 0x5D0 then some (0, .neutral)
      else none
  | .subscriptLetter => if c.toNat = 0x17D2 then some (-1, .neutral) else none
  | .toneLetter =>
      if 0xA4F8 ≤ c.toNat && c.toNat ≤ 0xA4FB then some (0, .neutral) else none
  | .skinTone =>
      if modifierBaseTable.contains c then some (0, .of .emoji)
      else if isJoiner then some (0, .of .joinedEmoji)
      else none
  | .indicator => if isRegionalIndicator c then some (1, .of .indicators) else none
  | .indicators =>
      if isRegionalIndicator c then some (1, .of .indicators)
      else if isJoiner then some (0, .of .joinedEmoji)
      else none
  | .emoji => if isJoiner then some (0, .of .joinedEmoji) else none
  | .joinedEmoji =>
      if isRegionalIndicator c then some (1, .of .firstJoinedIndicator)
      else if isSkinTone c then some (0, .of .skinTone)
      else if isEmoji c then some (0, .of .emoji)
      else none
  | .firstJoinedIndicator =>
      if isRegionalIndicator c then some (-1, .of .evenJoinedIndicators) else none
  | .evenJoinedIndicators =>
      if isRegionalIndicator c then some (3, .of .oddJoinedIndicators)
      else if isJoiner then some (0, .of .joinedEmoji)
      else none
  | .oddJoinedIndicators =>
      if isRegionalIndicator c then some (-1, .of .evenJoinedIndicators)
      else if isJoiner then some (0, .of .joinedEmoji)
      else none

/-- The columns that a character adds to the text after it. Control characters take one column,
and a carriage return before a line feed none. -/
def widthBefore (c : Char) (context : RightContext) : Int × RightContext :=
  if context.presentation = .asEmoji && isTextEmoji c then
    (if context.sign = .joinedEmoji then 0 else 2, .of .emoji)
  else if c.toNat ≤ 0xA0 then
    if c = '\n' then (1, .of .lineFeed)
    else if c = '\r' && context.sign = .lineFeed then (0, .neutral)
    else (1, .neutral)
  else if context ≠ .neutral && c.toNat = 0xFE0F then
    (0, ⟨if context.sign = .joinedEmoji then .joinedEmoji else .other, .asEmoji⟩)
  else if context ≠ .neutral && c.toNat = 0xFE0E then
    (0, ⟨.other, .asText⟩)
  else if context.presentation = .asText && isEmoji c && !isSquaredIdeograph c then
    (1, .neutral)
  else (joinedWidth? c context.sign).getD (standaloneWidth c)

def displayWidth (text : List Char) : Nat :=
  (text.foldr (fun c (width, context) =>
    let (added, context) := widthBefore c context
    (width + added, context)) ((0 : Int), RightContext.neutral)).1.toNat

end ResourceLanguage.Text
