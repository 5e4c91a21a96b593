/-
  Display width: how many columns a text takes on a terminal.

  Some characters form one sign with those behind them: a picture with its
  tone or its selector, pictures with joiners between them, letters that are
  written as one.  So the columns are counted from the end on, and what stands
  behind a character (`Behind`) decides what the character adds.

  * `step` is what one character adds, and what then stands behind the next;
  * `displayWidth` is the sum of what the characters add;
  * `columns_blank`: a blank ends every sign, so the columns before and behind
    it add up;
  * `displayWidth_plain`: up to U+00A0 every character takes one column.
-/
import LicenseExpr.Text.CharWidth
import LicenseExpr.Text.Emoji

namespace LicenseExpr

/-! ## What stands behind a character -/

/-- A letter that can be written as one with a letter before it. -/
inductive Ligature where
  /-- Lamed, with an alef. -/
  | lamed
  /-- Ya, with a vowel that has a vowel sign. -/
  | ya
  /-- A consonant, with another one. -/
  | consonant
  /-- I, with a letter that encloses it. -/
  | orkhonI
  deriving DecidableEq

/-- The part of a sign that stands behind a character. -/
inductive Sign where
  | nothing
  | tone
  | indicator
  /-- Two indicators or more. -/
  | indicators
  | picture
  /-- A picture with a joiner before it. -/
  | joinedPicture
  /-- A joined keycap, of which the key is missing. -/
  | joinedKeycap
  /-- An indicator before a joined picture. -/
  | joinedIndicator
  | evenJoinedIndicators
  | oddJoinedIndicators
  /-- The end of the joined name of a region, and so many letters of it. -/
  | regionLetters (n : Nat)
  /-- The end of the joined name of a region, before which stand so many
      digits. -/
  | regionDigits (n : Nat)
  | vowelE
  /-- The vowel ai, which is e twice. -/
  | vowelAi
  /-- Alef, which is written as one with a lam. -/
  | alef
  | letter (l : Ligature) (joined : Bool)
  /-- A vowel sign that is joined with a ya. -/
  | vowelYa
  /-- A consonant, and before it the sign that joins consonants. -/
  | joinedConsonant
  /-- The second half of a tone letter. -/
  | toneLetter
  /-- A letter that can stand below the line. -/
  | subscript
  deriving DecidableEq

/-- Whether the sign is one of letters, which goes on before a selector. -/
def Sign.isOfLetters : Sign → Bool
  | alef => true
  | letter _ _ => true
  | vowelYa => true
  | joinedConsonant => true
  | toneLetter => true
  | subscript => true
  | _ => false

/-- Whether the sign awaits the character that a joiner joins. -/
def Sign.isJoined : Sign → Bool
  | joinedPicture => true
  | joinedKeycap => true
  | _ => false

/-- A mark that says in which form the character before it is shown. -/
inductive Selector where
  | picture
  | text
  /-- The wide form of a quotation mark. -/
  | wide
  deriving DecidableEq

/-- The selector that a character is. -/
def Selector.of? (c : Char) : Option Selector :=
  if c = '\uFE0F' then some .picture
  else if c = '\uFE0E' then some .text
  else if c = '\uFE01' then some .wide
  else none

/-- What stands behind a character: the part of a sign, and a selector before
    it. -/
structure Behind where
  sign : Sign
  selector : Option Selector
  deriving DecidableEq

/-- Nothing that could form a sign. -/
def Behind.nothing : Behind := ⟨.nothing, none⟩

/-! ## The letters -/

/-- The alefs that are written as one with a lam. -/
def alefRanges : List (Nat × Nat) :=
  [(0x622, 0x623), (0x625, 0x625), (0x627, 0x627), (0x671, 0x673), (0x675, 0x675),
   (0x773, 0x774), (0x870, 0x882)]

/-- The lams that are written as one with an alef. -/
def lamRanges : List (Nat × Nat) :=
  [(0x644, 0x644), (0x6B5, 0x6B8), (0x76A, 0x76A), (0x8A6, 0x8A6), (0x8C7, 0x8C7)]

/-- The letters that can stand below the line. -/
def subscriptRanges : List (Nat × Nat) :=
  [(0x1780, 0x1782), (0x1784, 0x1787), (0x1789, 0x178C), (0x178E, 0x1793), (0x1795, 0x1798),
   (0x179B, 0x179D), (0x17A0, 0x17A0), (0x17A2, 0x17A2), (0x17A7, 0x17A7), (0x17AB, 0x17AC),
   (0x17AF, 0x17AF)]

/-- The consonants that can be written as one. -/
def consonantRanges : List (Nat × Nat) :=
  [(0x2D31, 0x2D65), (0x2D6F, 0x2D6F)]

/-- The invisible marks that do not part letters; the joiner is one of them. -/
def invisibleRanges : List (Nat × Nat) :=
  [(0x34F, 0x34F), (0x17B4, 0x17B5), (0x180B, 0x180D), (0x180F, 0x180F), (0x200D, 0x200D),
   (0xFE00, 0xFE0F), (0xE0100, 0xE01EF)]

/-- The characters without a column that part a lam from an alef. -/
def partingRanges : List (Nat × Nat) :=
  [(0x605, 0x605), (0x890, 0x891), (0x8E2, 0x8E2), (0x9BE, 0x9BE), (0x9D7, 0x9D7), (0xB3E, 0xB3E),
   (0xB57, 0xB57), (0xBBE, 0xBBE), (0xBD7, 0xBD7), (0xCC0, 0xCC0), (0xCC2, 0xCC2), (0xCC7, 0xCC8),
   (0xCCA, 0xCCB), (0xCD5, 0xCD6), (0xD3E, 0xD3E), (0xD4E, 0xD4E), (0xD57, 0xD57), (0xDCF, 0xDCF),
   (0xDDF, 0xDDF), (0x1160, 0x11FF), (0x1715, 0x1715), (0x1734, 0x1734), (0x180E, 0x180E),
   (0x1B35, 0x1B35), (0x1B3B, 0x1B3B), (0x1B3D, 0x1B3D), (0x1B43, 0x1B44), (0x1BAA, 0x1BAA),
   (0x1BF2, 0x1BF3), (0x200C, 0x200D), (0x2065, 0x2069), (0x302E, 0x302F), (0x3164, 0x3164),
   (0xA8FA, 0xA8FA), (0xA953, 0xA953), (0xA9C0, 0xA9C0), (0xD7B0, 0xD7C6), (0xD7CB, 0xD7FB),
   (0xFFA0, 0xFFA0), (0xFFF0, 0xFFF8), (0x111C0, 0x111C0), (0x111C2, 0x111C3), (0x11235, 0x11235),
   (0x1133E, 0x1133E), (0x1134D, 0x1134D), (0x11357, 0x11357), (0x113B8, 0x113B8),
   (0x113C2, 0x113C2), (0x113C5, 0x113C5), (0x113C7, 0x113C9), (0x113CF, 0x113CF),
   (0x113D1, 0x113D1), (0x114B0, 0x114B0), (0x114BD, 0x114BD), (0x115AF, 0x115AF),
   (0x116B6, 0x116B6), (0x11930, 0x11930), (0x1193D, 0x1193D), (0x1193F, 0x1193F),
   (0x11941, 0x11941), (0x11A84, 0x11A89), (0x11D46, 0x11D46), (0x11F02, 0x11F02),
   (0x11F41, 0x11F41), (0x16FF0, 0x16FF1), (0x1D165, 0x1D166), (0x1D16D, 0x1D172),
   (0xE0000, 0xE0000), (0xE0002, 0xE001F), (0xE0080, 0xE00FF), (0xE01F0, 0xE0FFF)]

/-- Whether a character takes no column and does not part a lam from an alef. -/
def isTransparent (c : Char) : Bool :=
  charWidth c = 0 && !inRanges partingRanges c.toNat

/-- Whether a character is a quotation mark that has a wide form. -/
def isQuote (c : Char) : Bool :=
  c = '\u2018' || c = '\u2019' || c = '\u201C' || c = '\u201D'

/-! ## Counting -/

/-- The columns of a character that is no part of the sign behind it, and the
    sign that ends with it. -/
def alone (c : Char) : Int × Sign :=
  let n := c.toNat
  if isPicture c then (2, .picture)
  else if isTone c then (2, .tone)
  else if isIndicator c then (1, .indicator)
  else if inRanges alefRanges n then (1, .alef)
  else if inRanges subscriptRanges n then (1, .subscript)
  else if inRanges consonantRanges n then (1, .letter .consonant false)
  else if n = 0x5DC then (1, .letter .lamed false)
  else if n = 0x1A10 then (1, .letter .ya false)
  else if n = 0x10C03 then (1, .letter .orkhonI false)
  else if n = 0xA4FC ∨ n = 0xA4FD then (1, .toneLetter)
  else if n = 0x16D67 then (1, .vowelE)
  else if n = 0x16D68 then (1, .vowelAi)
  else (charWidth c, .nothing)

/-- What a character adds to a sign of pictures. -/
def amongPictures? (c : Char) (s : Sign) : Option (Int × Sign) :=
  let n := c.toNat
  let joiner := c = '\u200D'
  match s with
  | .tone =>
    if takesTone c then some (0, .picture)
    else if joiner then some (0, .joinedPicture)
    else none
  | .picture => if joiner then some (0, .joinedPicture) else none
  | .indicator => if isIndicator c then some (1, .indicators) else none
  | .indicators =>
    if isIndicator c then some (1, .indicators)
    else if joiner then some (0, .joinedPicture)
    else none
  | .joinedPicture =>
    if n = 0x20E3 then some (0, .joinedKeycap)
    else if isIndicator c then some (1, .joinedIndicator)
    else if isTone c then some (0, .tone)
    else if n = 0xE007F then some (0, .regionLetters 0)
    else if isPicture c then some (0, .picture)
    else none
  | .joinedIndicator => if isIndicator c then some (-1, .evenJoinedIndicators) else none
  | .evenJoinedIndicators =>
    if isIndicator c then some (3, .oddJoinedIndicators)
    else if joiner then some (0, .joinedPicture)
    else none
  | .oddJoinedIndicators =>
    if isIndicator c then some (-1, .evenJoinedIndicators)
    else if joiner then some (0, .joinedPicture)
    else none
  | .regionLetters k =>
    if 0xE0061 ≤ n ∧ n ≤ 0xE007A ∧ k < 6 then some (0, .regionLetters (k + 1))
    else if 0xE0030 ≤ n ∧ n ≤ 0xE0039 ∧ k < 5 then some (0, .regionDigits 1)
    else if n = 0x1F3F4 ∧ 3 ≤ k then some (0, .picture)
    else none
  | .regionDigits k =>
    if 0xE0030 ≤ n ∧ n ≤ 0xE0039 ∧ k < 3 then some (0, .regionDigits (k + 1))
    else if n = 0x1F3F4 ∧ k = 3 then some (0, .picture)
    else none
  | _ => none

/-- What a character adds to a sign of letters. -/
def amongLetters? (c : Char) (s : Sign) : Option (Int × Sign) :=
  let n := c.toNat
  match s with
  | .alef =>
    if inRanges lamRanges n then some (0, .nothing)
    else if isTransparent c then some (0, .alef)
    else none
  | .letter .lamed true => if n = 0x5D0 then some (0, .nothing) else none
  | .letter .ya true => if n = 0x1A17 then some (0, .vowelYa) else none
  | .vowelYa => if n = 0x1A15 then some (0, .nothing) else none
  | .letter .orkhonI true => if n = 0x10C32 then some (0, .nothing) else none
  | .letter .consonant joined =>
    if n = 0x2D7F then some (1, .joinedConsonant)
    else if joined ∧ inRanges consonantRanges n = true then some (0, .nothing)
    else none
  | .joinedConsonant => if inRanges consonantRanges n then some (-1, .nothing) else none
  | .toneLetter => if 0xA4F8 ≤ n ∧ n ≤ 0xA4FB then some (0, .nothing) else none
  | .subscript => if n = 0x17D2 then some (-1, .nothing) else none
  | .vowelE =>
    if n = 0x16D63 ∨ n = 0x16D69 then some (0, .nothing)
    else if n = 0x16D67 then some (0, .vowelAi)
    else if n = 0x16D68 then some (1, .vowelE)
    else none
  | .vowelAi => if n = 0x16D63 then some (0, .nothing) else none
  | _ => none

/-- What a character adds that has no selector behind it. -/
def plainStep (c : Char) (s : Sign) : Int × Sign :=
  if s.isOfLetters ∧ s ≠ .alef ∧ inRanges invisibleRanges c.toNat = true then
    match s with
    | .letter l joined => (0, .letter l (joined || c = '\u200D'))
    | s => (0, s)
  else
    ((amongPictures? c s).or (amongLetters? c s)).getD (alone c)

/-- What a character adds, and what then stands behind the character before
    it.  A character that has the form that a selector asks for takes the
    columns of that form. -/
def step (c : Char) (b : Behind) : Int × Behind :=
  if b.selector = some .picture ∧ hasTwoForms c = true then
    (if b.sign.isJoined then 0 else 2, ⟨.picture, none⟩)
  else
    let sign := if b.selector = some .picture ∧ !b.sign.isOfLetters then .nothing else b.sign
    if c.toNat ≤ 0xA0 then (1, .nothing)
    else
      match Selector.of? c with
      | some s =>
        let goesOn := sign.isOfLetters || (s = .picture && sign.isJoined)
        (0, ⟨if goesOn then sign else .nothing, some s⟩)
      | none =>
        if b.selector = some .text ∧ narrowsAsText c = true then (1, .nothing)
        else if b.selector = some .wide ∧ isQuote c = true then (2, .nothing)
        else
          let (width, sign) := plainStep c sign
          (width, ⟨sign, none⟩)

/-- The columns of the characters behind a place and what stands there, with
    one more character before it. -/
def count (c : Char) (r : Int × Behind) : Int × Behind :=
  let s := step c r.2
  (s.1 + r.1, s.2)

/-- The columns of characters, and what they are for a character before them. -/
def columns (cs : List Char) : Int × Behind :=
  cs.foldr count (0, .nothing)

/-- The columns of a text. -/
def displayWidth (s : String) : Nat :=
  (columns s.toList).1.toNat

/-! ## Laws -/

/-- A character up to U+00A0 without a selector behind it takes one column. -/
theorem step_plain (c : Char) (h : c.toNat ≤ 0xA0) : step c .nothing = (1, .nothing) := by
  simp [step, Behind.nothing, h]

theorem step_blank (b : Behind) : step ' ' b = (1, .nothing) := by
  have two : hasTwoForms ' ' = false := by decide
  simp [step, two]

theorem foldr_count (cs : List Char) (w : Int) (b : Behind) :
    cs.foldr count (w, b) = ((cs.foldr count (0, b)).1 + w, (cs.foldr count (0, b)).2) := by
  induction cs with
  | nil => simp
  | cons c cs ih =>
    rw [List.foldr_cons, List.foldr_cons, ih]
    simp only [count]
    rw [Int.add_assoc]

/-- A blank ends every sign: the columns before it, its own, and those behind
    it add up. -/
theorem columns_blank (cs ds : List Char) :
    (columns (cs ++ ' ' :: ds)).1 = (columns cs).1 + (1 + (columns ds).1) := by
  have blank : count ' ' (ds.foldr count (0, .nothing)) =
      (1 + (ds.foldr count (0, .nothing)).1, .nothing) := by
    simp only [count, step_blank]
  simp only [columns, List.foldr_append, List.foldr_cons]
  rw [blank, foldr_count]

theorem columns_plain (cs : List Char) (h : ∀ c ∈ cs, c.toNat ≤ 0xA0) :
    columns cs = ((cs.length : Int), .nothing) := by
  induction cs with
  | nil => rfl
  | cons c cs ih =>
    have rest : columns cs = ((cs.length : Int), .nothing) :=
      ih fun d hd => h d (List.mem_cons_of_mem c hd)
    have unfolded : columns (c :: cs) = count c (columns cs) := rfl
    rw [unfolded, rest]
    simp only [count, step_plain c (h c List.mem_cons_self), List.length_cons]
    rw [Int.natCast_succ, Int.add_comm]

/-- Up to U+00A0 every character takes one column. -/
theorem displayWidth_plain (s : String) (h : ∀ c ∈ s.toList, c.toNat ≤ 0xA0) :
    displayWidth s = s.toList.length := by
  simp [displayWidth, columns_plain s.toList h]

end LicenseExpr
