import SequenceChart.Unicode.Width
import SequenceChart.Unicode.Emoji
import SequenceChart.Unicode.Letters

/-!
# Display columns of a text

How many columns a text takes on a screen is not the sum over its characters: two letters can join,
a selector can widen or narrow the character before it, and an emoji can be made of several
characters. The count reads the text from its end, because what stands behind a character decides
about it.

* `charColumns` is the width of a character that stands alone;
* `Behind` is what the count remembers of the text behind a character. Columns that the next
  character may spare are still `waiting`;
* `rules` lists what characters make together, and `step` is the machine that reads one character
  more;
* `columns` runs the machine over a whole text;
* `Measure` is a pair of width functions, the interface through which texts are wrapped.
-/

namespace SequenceChart.Text

open SequenceChart.Unicode

/-! ## 1. Single characters -/

/-- The columns of a character on its own. A control character has no width; it counts as 0. -/
def charColumns (c : Char) : Nat :=
  if c.toNat < 0x20 || (0x7F ≤ c.toNat && c.toNat < 0xA0) then 0
  else if c.toNat < 0x7F then 1
  else if zeroWidth.has c then 0
  else if wide.has c then 2
  else if tripleWidth.has c then 3
  else 1

/-- The zero width joiner, which makes one sign of its two neighbours. -/
def joiner : Char := '\u200d'

/-- The selector that asks for the text style of the character before it. -/
def textSelector : Char := '\ufe0e'

/-- The selector that asks for the emoji style of the character before it. -/
def emojiSelector : Char := '\ufe0f'

/-- The selector that asks for the wide form of the quotation mark before it. -/
def wideSelector : Char := '\ufe01'

/-- A lam and an alef join across this character: it has no width and does not break joining. -/
def joinsAcross (c : Char) : Bool :=
  charColumns c = 0 && !joiningBreak.has c

/-! ## 2. What stands behind a character -/

/-- A letter that can join with what stands before it. Some letters do so only behind a joiner. -/
inductive Letter where
  /-- An alef, with which a lam makes one letter. -/
  | alef
  /-- A Hebrew lamed, with which an alef makes one letter behind a joiner. -/
  | lamed
  | joinedLamed
  /-- A Khmer letter, which a coeng puts below the letter before it. -/
  | coengLetter
  /-- A Buginese ya, which joins with a vowel sign and an a before that. -/
  | ya
  | joinedYa
  | yaBehindVowel
  /-- A Tifinagh consonant, which another one joins, through a sign or a joiner. -/
  | consonant
  | joinedConsonant
  | consonantBehindSign
  /-- A Lisu tone, second of a pair. -/
  | tone
  /-- An Old Turkic letter that joins behind a joiner. -/
  | orkhonI
  | joinedOrkhonI
  /-- The Kirat Rai vowel signs that are made of others. -/
  | vowelE
  | vowelAi
  deriving DecidableEq, Repr

/-- A sign that asks for a form of the character before it. -/
inductive Selector where
  | text
  | emoji
  | wide
  deriving DecidableEq, Repr

/-- What stands right behind the character that is read next. -/
inductive Behind where
  /-- Nothing that matters. -/
  | plain
  /-- A line feed, with which a carriage return makes one break. -/
  | lineFeed
  /-- A letter that can join. Marks may stand in front of it. -/
  | letter (l : Letter)
  /-- A selector, which can stand in front of such a letter. -/
  | selected (s : Selector) (l : Option Letter)
  /-- An emoji. -/
  | emoji
  /-- A skin tone. -/
  | skinTone
  /-- A joiner in front of an emoji. -/
  | joiner
  /-- A key in front of such a joiner. -/
  | keycap
  /-- The emoji selector in front of such a joiner or key. -/
  | joinedStyle
  /-- The last tags in front of such a joiner: so many for letters. -/
  | tagLetters (n : Nat)
  /-- So many tags for digits, with others behind them. -/
  | tagDigits (n : Nat)
  /-- A letter of a flag. -/
  | flagLetter
  /-- More than one letter of flags. -/
  | flagLetters
  /-- One letter of a flag in front of a joiner and an emoji. -/
  | halfFlag
  /-- An even number of such letters, the last two of which are joined to the emoji. -/
  | joinedFlag
  /-- An odd number of such letters. -/
  | splitFlag
  deriving DecidableEq, Repr

/-- The letter behind a joiner. -/
def Letter.withJoiner : Letter → Letter
  | .lamed => .joinedLamed
  | .ya => .joinedYa
  | .consonant => .joinedConsonant
  | .orkhonI => .joinedOrkhonI
  | l => l

/-- The columns of a letter that may be spared yet. -/
def Letter.waiting : Letter → Nat
  | .coengLetter | .consonantBehindSign => 1
  | _ => 0

/-- The columns that are not counted yet, since the character that is read next may spare them. -/
def Behind.waiting : Behind → Nat
  | .letter l | .selected _ (some l) => l.waiting
  | .halfFlag | .splitFlag => 1
  | _ => 0

/-- A letter, or nothing that matters. -/
def Behind.ofLetter : Option Letter → Behind
  | none => .plain
  | some l => .letter l

/-! ## 3. What characters make together -/

/-- What a character makes together with what stands behind it: the columns that are counted then,
    and what this is for the character before. -/
structure Rule where
  behind : Behind
  before : Ranges
  columns : Nat
  leaves : Behind

/-- Letters that join. -/
def letterRules : List Rule :=
  [⟨.letter .alef, lam, 0, .plain⟩,
   ⟨.letter .joinedLamed, [(0x5D0, 0x5D0)], 0, .plain⟩,
   -- the column of the letter that a coeng puts below another is spared
   ⟨.letter .coengLetter, [(0x17D2, 0x17D2)], 0, .plain⟩,
   ⟨.letter .joinedYa, [(0x1A17, 0x1A17)], 0, .letter .yaBehindVowel⟩,
   ⟨.letter .yaBehindVowel, [(0x1A15, 0x1A15)], 0, .plain⟩,
   -- the sign takes a column unless it joins two consonants
   ⟨.letter .consonant, [(0x2D7F, 0x2D7F)], 0, .letter .consonantBehindSign⟩,
   ⟨.letter .joinedConsonant, [(0x2D7F, 0x2D7F)], 0, .letter .consonantBehindSign⟩,
   ⟨.letter .joinedConsonant, tifinaghConsonant, 0, .plain⟩,
   ⟨.letter .consonantBehindSign, tifinaghConsonant, 0, .plain⟩,
   ⟨.letter .tone, firstTone, 0, .plain⟩,
   ⟨.letter .joinedOrkhonI, [(0x10C32, 0x10C32)], 0, .plain⟩,
   -- these vowel signs take one column, as one character or as the parts it is made of
   ⟨.letter .vowelE, [(0x16D63, 0x16D63), (0x16D69, 0x16D69)], 0, .plain⟩,
   ⟨.letter .vowelE, [(0x16D67, 0x16D67)], 0, .letter .vowelAi⟩,
   ⟨.letter .vowelE, [(0x16D68, 0x16D68)], 1, .letter .vowelE⟩,
   ⟨.letter .vowelAi, [(0x16D63, 0x16D63)], 0, .plain⟩]

/-- The joiner by itself. -/
def joiners : Ranges := [(0x200D, 0x200D)]

/-- Emoji that are made of several characters. A joined flag spares the columns of its letters, and
    they come back if there is a letter too many in front of it. -/
def emojiRules : List Rule :=
  [⟨.emoji, joiners, 0, .joiner⟩,
   ⟨.skinTone, modifierBase, 0, .emoji⟩,
   ⟨.skinTone, joiners, 0, .joiner⟩,
   ⟨.joiner, Unicode.skinTone, 0, .skinTone⟩,
   ⟨.joiner, emojiPresentation, 0, .emoji⟩,
   ⟨.joiner, Unicode.keycap, 0, .keycap⟩,
   ⟨.joiner, tagEnd, 0, .tagLetters 0⟩,
   ⟨.joiner, regionalIndicator, 0, .halfFlag⟩,
   ⟨.flagLetter, regionalIndicator, 1, .flagLetters⟩,
   ⟨.flagLetters, regionalIndicator, 1, .flagLetters⟩,
   ⟨.flagLetters, joiners, 0, .joiner⟩,
   ⟨.halfFlag, regionalIndicator, 0, .joinedFlag⟩,
   ⟨.joinedFlag, regionalIndicator, 2, .splitFlag⟩,
   ⟨.joinedFlag, joiners, 0, .joiner⟩,
   ⟨.splitFlag, regionalIndicator, 0, .joinedFlag⟩,
   ⟨.splitFlag, joiners, 1, .joiner⟩]

/-- The tags of a region, read from their end: three to six letters, or three digits in front of no
    more than four letters. -/
def tagRules : List Rule :=
  (List.range 6).map (fun n => ⟨.tagLetters n, tagLetter, 0, .tagLetters (n + 1)⟩) ++
  (List.range 5).map (fun n => ⟨.tagLetters n, tagDigit, 0, .tagDigits 1⟩) ++
  [⟨.tagDigits 1, tagDigit, 0, .tagDigits 2⟩, ⟨.tagDigits 2, tagDigit, 0, .tagDigits 3⟩] ++
  [3, 4, 5, 6].map (fun n => ⟨.tagLetters n, blackFlag, 0, .emoji⟩) ++
  [⟨.tagDigits 3, blackFlag, 0, .emoji⟩]

/-- What characters make together. The first rule that applies decides. -/
def rules : List Rule :=
  letterRules ++ emojiRules ++ tagRules

/-- What characters are for the character before them, if they make nothing with what stands behind
    them. -/
def marked : List (Ranges × Behind) :=
  [(regionalIndicator, .flagLetter),
   (Unicode.skinTone, .skinTone),
   (Unicode.alef, .letter .alef),
   ([(0x5DC, 0x5DC)], .letter .lamed),
   (Unicode.coengLetter, .letter .coengLetter),
   ([(0x1A10, 0x1A10)], .letter .ya),
   (tifinaghConsonant, .letter .consonant),
   (secondTone, .letter .tone),
   ([(0x10C03, 0x10C03)], .letter .orkhonI),
   ([(0x16D67, 0x16D67)], .letter .vowelE),
   ([(0x16D68, 0x16D68)], .letter .vowelAi),
   (emojiPresentation, .emoji)]

/-! ## 4. The machine -/

/-- What a character by itself leaves behind the character before it. -/
def Behind.ofChar (c : Char) : Behind :=
  match marked.find? fun p => p.1.has c with
  | some p => p.2
  | none => .plain

/-- A character that makes nothing with what stands behind it. -/
def Behind.apart (behind : Behind) (c : Char) : Nat × Behind :=
  (behind.waiting + (charColumns c - (Behind.ofChar c).waiting), Behind.ofChar c)

/-- The letter joins with what stands before this character, too. -/
def Letter.passes (l : Letter) (c : Char) : Bool :=
  if l = .alef then joinsAcross c else joiningMark.has c

/-- A character outside ASCII that is no selector. -/
def stepBeyond (behind : Behind) (c : Char) : Nat × Behind :=
  match rules.find? fun r => r.behind = behind && r.before.has c with
  | some r => (r.columns, r.leaves)
  | none =>
    match behind with
    | .letter l =>
      if l.passes c then (0, .letter (if c = joiner then l.withJoiner else l))
      else behind.apart c
    | _ => behind.apart c

/-- The characters that are selectors. -/
def selectors : List (Char × Selector) :=
  [(textSelector, .text), (emojiSelector, .emoji), (wideSelector, .wide)]

def Selector.ofChar? (c : Char) : Option Selector :=
  (selectors.find? fun p => p.1 = c).map (·.2)

/-- What a selector leaves behind the character before it. It is a mark like any other to a letter,
    and the emoji selector is part of the emoji to a joiner. -/
def Behind.select (s : Selector) : Behind → Nat × Behind
  | .letter l => (0, .selected s (some l))
  | .joiner | .keycap => (0, if s = .emoji then .joinedStyle else .selected s none)
  | behind => (behind.waiting, .selected s none)

/-- A character without a selector that it reacts to. Up to U+00A0 every character takes one column,
    also a control character; only a carriage return in front of a line feed takes none. -/
def stepUnselected (behind : Behind) (c : Char) : Nat × Behind :=
  if c.toNat ≤ 0xA0 then
    if c = '\r' && behind = .lineFeed then (0, .plain)
    else (behind.waiting + 1, if c = '\n' then .lineFeed else .plain)
  else
    match Selector.ofChar? c with
    | some s => behind.select s
    | none => stepBeyond behind c

/-- The characters that react to a selector. -/
def Selector.base : Selector → Ranges
  | .text => textStyleBase
  | .emoji => emojiStyleBase
  | .wide => wideStyleBase

/-- The columns of a character that reacts to a selector. -/
def Selector.columns : Selector → Nat
  | .text => 1
  | .emoji | .wide => 2

/-- What a character that reacts to a selector is for the character before it. -/
def Selector.leaves : Selector → Behind
  | .emoji => .emoji
  | .text | .wide => .plain

/-- **One character more, read from the end**: the columns that are counted then, and what is left
    behind the character before it. -/
def step (behind : Behind) (c : Char) : Nat × Behind :=
  match behind with
  | .selected s l =>
    if s.base.has c then (behind.waiting + s.columns, s.leaves)
    else stepUnselected (.ofLetter l) c
  | .joinedStyle => if emojiStyleBase.has c then (0, .emoji) else stepUnselected .plain c
  | _ => stepUnselected behind c

/-! ## 5. Whole texts -/

/-- The columns that are counted, and what the first character leaves behind it. -/
def scan (text : List Char) : Nat × Behind :=
  text.foldr (fun c seen => ((step seen.2 c).1 + seen.1, (step seen.2 c).2)) (0, .plain)

/-- The display columns of a text. -/
def columns (text : List Char) : Nat :=
  (scan text).1 + (scan text).2.waiting

@[simp] theorem columns_nil : columns [] = 0 := rfl

/-- Letters that are written as one: an alef and a lamed behind a joiner, and a letter below another. -/
example : columns ['\u05d0', joiner, '\u05dc'] = 1 ∧ columns ['\u05d0', '\u05dc'] = 2 ∧
    columns ['\u1780', '\u17d2', '\u1780'] = 1 := by
  decide +kernel

/-! ## 6. Measures -/

/-- Two width functions: for a whole text, and for one character by itself. Nothing ties the
    two together. -/
structure Measure where
  text : List Char → Nat
  char : Char → Nat

/-- The display columns of texts and of characters. -/
def Measure.display : Measure := ⟨columns, charColumns⟩

/-- The empty text takes no column, and a space takes one. -/
structure Measure.Sane (m : Measure) : Prop where
  nil : m.text [] = 0
  space : m.text [' '] = 1

theorem Measure.display_sane : Measure.display.Sane where
  nil := rfl
  space := by decide

end SequenceChart.Text
