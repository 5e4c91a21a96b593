/-
  Control sequences: what a text holds that a terminal obeys and does not show.

  A sequence starts with an escape character; its next characters say of which
  kind it is and where it ends.

  * `State` is how far the reading of a sequence has got, `State.next` how a
    character takes it further, and `State.shows` whether the character is
    shown all the same: blanks that end lines or advance are, unless the
    sequence is one of the kinds that carry a text of their own;
  * a blank that is shown inside a sequence interrupts it: the sequence goes
    on only behind the next control character (`resumed`);
  * `withoutControls` is what is left of a text without its control sequences
    and control characters; `withoutControls_plain`: a text without such is
    left as it is.
-/

namespace LicenseExpr

namespace ControlSequence

/-- How far the reading has got. -/
inductive State where
  /-- Not in a sequence. -/
  | ground
  /-- Behind the escape character. -/
  | escape
  /-- In a sequence of a few characters. -/
  | short
  /-- In a sequence with parameters. -/
  | control
  /-- In the text of a command, which a bell ends. -/
  | command
  /-- At the start, in the parameters, or behind the parameters of a device
      sequence. -/
  | deviceStart
  | deviceParameters
  | deviceMarks
  /-- In a text that a terminator ends. -/
  | data
  /-- In a text behind a blank that stands in one of the first sequences. -/
  | resumed (interrupted : State)
  deriving DecidableEq

/-- Whether a character is in an inclusive range. -/
def between (low high : Nat) (c : Char) : Bool :=
  low ≤ c.toNat && c.toNat ≤ high

/-- A character that is shown: no control character, or one that is a blank. -/
def isShown (c : Char) : Bool :=
  (0x20 ≤ c.toNat && c.toNat ≠ 0x7F) || c = '\t' || c = '\n' || c.toNat = 0xC || c = '\r'

/-- A control character that is a blank. -/
def isBlankControl (c : Char) : Bool :=
  isShown c && c.toNat < 0x20

/-- Whether one of the later octets of a character is that of the string
    terminator. -/
def holdsTerminator (c : Char) : Bool :=
  let n := c.toNat
  (0x80 ≤ n && n % 64 = 0x1C) || (0x800 ≤ n && n / 64 % 64 = 0x1C) ||
    (0x10000 ≤ n && n / 4096 % 64 = 0x1C)

/-- The kind of the sequence that a character opens behind an escape. -/
def opened (c : Char) : State :=
  if c = '[' then .control
  else if c = ']' then .command
  else if c = 'P' then .deviceStart
  else if c = 'X' ∨ c = '^' ∨ c = '_' then .data
  else if between 0x30 0x7E c then .ground
  else if between 0x20 0x2F c then .short
  else .escape

/-- How a character takes the reading further that neither opens nor aborts a
    sequence. -/
def State.continued (s : State) (c : Char) : State :=
  match s with
  | ground => ground
  | escape => opened c
  | short => if between 0x30 0x7E c then ground else short
  | control => if between 0x40 0x7E c then ground else control
  | command => if c.toNat = 0x7 then ground else command
  | deviceStart =>
    if between 0x40 0x7E c then data
    else if between 0x30 0x3F c then deviceParameters
    else if between 0x20 0x2F c then deviceMarks
    else deviceStart
  | deviceParameters =>
    if between 0x3C 0x7E c then data
    else if between 0x20 0x2F c then deviceMarks
    else deviceParameters
  | deviceMarks => if between 0x30 0x7E c then data else deviceMarks
  | data => if holdsTerminator c then ground else data
  | resumed s => if isShown c then (if c.toNat < 0x80 then resumed s else ground) else s

/-- How a character takes the reading further. -/
def State.next (s : State) (c : Char) : State :=
  if c.toNat = 0x1B then escape
  else if c.toNat = 0x18 ∨ c.toNat = 0x1A then ground
  else
    match s with
    | escape => if isBlankControl c then resumed escape else opened c
    | short => if isBlankControl c then resumed short else s.continued c
    | control => if isBlankControl c then resumed control else s.continued c
    | s => s.continued c

/-- Whether a character is shown. -/
def State.shows (s : State) (c : Char) : Bool :=
  match s with
  | ground => isShown c
  | resumed _ => isShown c
  | escape => isBlankControl c
  | short => isBlankControl c
  | control => isBlankControl c
  | _ => false

/-- The characters that are shown from a state on, the last one first, behind
    those that are given. -/
def State.shownOnto (s : State) : List Char → List Char → List Char
  | [], acc => acc
  | c :: rest, acc => (s.next c).shownOnto rest (if s.shows c then c :: acc else acc)

theorem next_ground {c : Char} (h : isShown c = true) : State.ground.next c = .ground := by
  have range : 0x20 ≤ c.toNat ∨ c.toNat = 0x9 ∨ c.toNat = 0xA ∨ c.toNat = 0xC ∨ c.toNat = 0xD := by
    simp only [isShown, Bool.or_eq_true, Bool.and_eq_true, decide_eq_true_eq] at h
    rcases h with (((h | rfl) | rfl) | h) | rfl
    · exact Or.inl h.1
    · exact Or.inr (Or.inl rfl)
    · exact Or.inr (Or.inr (Or.inl rfl))
    · exact Or.inr (Or.inr (Or.inr (Or.inl h)))
    · exact Or.inr (Or.inr (Or.inr (Or.inr rfl)))
  have noEscape : ¬ c.toNat = 0x1B := by omega
  have noAbort : ¬ (c.toNat = 0x18 ∨ c.toNat = 0x1A) := by omega
  simp [State.next, State.continued, noEscape, noAbort]

theorem shownOnto_plain (cs acc : List Char) (h : ∀ c ∈ cs, isShown c = true) :
    State.ground.shownOnto cs acc = cs.reverse ++ acc := by
  induction cs generalizing acc with
  | nil => rfl
  | cons c cs ih =>
    have hc := h c List.mem_cons_self
    rw [State.shownOnto, next_ground hc, ih _ fun d hd => h d (List.mem_cons_of_mem c hd)]
    simp [State.shows, hc]

end ControlSequence

open ControlSequence in
/-- A text without its control sequences and control characters. -/
def withoutControls (text : String) : String :=
  String.ofList (State.ground.shownOnto text.toList []).reverse

open ControlSequence in
/-- A text without control characters is left as it is. -/
theorem withoutControls_plain (text : String) (h : ∀ c ∈ text.toList, isShown c = true) :
    withoutControls text = text := by
  simp [withoutControls, shownOnto_plain text.toList [] h]

end LicenseExpr
