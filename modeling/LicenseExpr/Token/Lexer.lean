/-
  Splitting a text into tokens.

  `scan` works from left to right: the blanks of Unicode (`isBlank`) separate
  tokens, a parenthesis is a token, and a word is the longest run of identifier
  characters together with a `+` directly behind it.  Any other character is an
  error, so a `+` that follows no word is one.  Offsets count bytes;
  `scan_seen` says that the tokens found so far only stand in front of the
  later ones.
-/
import LicenseExpr.SyntaxError
import LicenseExpr.Text.Ascii
import LicenseExpr.Token

namespace LicenseExpr

/-- The code points with the Unicode property `White_Space`, as inclusive
    ranges. -/
def blankRanges : List (Nat × Nat) :=
  [(0x09, 0x0D), (0x20, 0x20), (0x85, 0x85), (0xA0, 0xA0), (0x1680, 0x1680), (0x2000, 0x200A),
   (0x2028, 0x2029), (0x202F, 0x202F), (0x205F, 0x205F), (0x3000, 0x3000)]

/-- A character that separates tokens. -/
def isBlank (c : Char) : Bool :=
  blankRanges.any fun r => r.1 ≤ c.toNat && c.toNat ≤ r.2

namespace Token

theorem length_dropWhile_le (p : Char → Bool) (cs : List Char) :
    (cs.dropWhile p).length ≤ cs.length :=
  (List.dropWhile_suffix p).length_le

/-- Takes a `+` off the front, if there is one. -/
def takePlus : List Char → Bool × List Char
  | '+' :: rest => (true, rest)
  | rest => (false, rest)

theorem length_takePlus_le (cs : List Char) : (takePlus cs).2.length ≤ cs.length := by
  unfold takePlus
  split <;> simp

/-- Scans `cs`, which starts `offset` bytes into the text, after the tokens
    `seen`, the last one first. -/
def scan (offset : Nat) (cs : List Char) (seen : List Token) :
    Except SyntaxError (List Token) :=
  match cs with
  | [] => .ok seen.reverse
  | c :: rest =>
    if isIdChar c then
      let word := String.ofList (c :: rest.takeWhile isIdChar)
      let behind := takePlus (rest.dropWhile isIdChar)
      let token : Token := ⟨.ofWord word behind.1, offset⟩
      scan (offset + token.text.utf8ByteSize) behind.2 (token :: seen)
    else if c = '(' then scan (offset + 1) rest (⟨.opening, offset⟩ :: seen)
    else if c = ')' then scan (offset + 1) rest (⟨.closing, offset⟩ :: seen)
    else if isBlank c then scan (offset + c.utf8Size) rest seen
    else .error ⟨.malformedToken, offset, c.toString⟩
  termination_by cs.length
  decreasing_by
    · have h₁ := length_takePlus_le (rest.dropWhile isIdChar)
      have h₂ := length_dropWhile_le isIdChar rest
      rw [List.length_cons]
      omega
    all_goals exact Nat.lt_succ_self _

/-- The tokens that have been found only stand in front of the later ones. -/
theorem scan_seen (offset : Nat) (cs : List Char) (seen : List Token) :
    scan offset cs seen = (scan offset cs []).map (seen.reverse ++ ·) := by
  induction hn : cs.length using Nat.strongRecOn generalizing offset cs seen with
  | _ n ih =>
    subst hn
    cases cs with
    | nil => simp [scan, Except.map]
    | cons c rest =>
      have hrest : rest.length < (c :: rest).length := Nat.lt_succ_self _
      have step : ∀ o (t : Token) us, us.length < (c :: rest).length →
          scan o us (t :: seen) = (scan o us [t]).map (seen.reverse ++ ·) := by
        intro o t us h
        rw [ih _ h o us (t :: seen) rfl, ih _ h o us [t] rfl]
        cases scan o us [] <;> simp [Except.map]
      rw [scan, scan.eq_def offset (c :: rest) []]
      simp only
      split
      · refine step _ _ _ ?_
        have h₁ := length_takePlus_le (rest.dropWhile isIdChar)
        have h₂ := length_dropWhile_le isIdChar rest
        omega
      split
      · exact step _ _ _ hrest
      split
      · exact step _ _ _ hrest
      split
      · exact ih _ hrest _ _ _ rfl
      · rfl

/-- The tokens of a text. -/
def tokenize (text : String) : Except SyntaxError (List Token) :=
  scan 0 text.toList []

end Token

end LicenseExpr
