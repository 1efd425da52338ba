import MailDialect.Token.Scanner

/-!
# Streams of tokens

A stream hands out the tokens of a template one by one. Asked for its next item, it ends after the
first error it hands out; asked for the next token alone, it pays no heed to errors handed out
before and reports an error again each time.
-/

namespace MailDialect.Token

/-- A scanner, and whether an item handed out was an error. -/
structure Stream where
  scanner : Scanner
  failed : Bool
deriving DecidableEq, Repr

namespace Stream

abbrev Item := Except ScanError Token

/-- The stream of all tokens of a template. -/
def ofSource (source : Text) : Stream :=
  ⟨Scanner.start source, false⟩

/-- Reads a token whether or not an error was handed out before; `none` is the end of the
template. -/
def nextToken (s : Stream) : Option Item × Stream :=
  match s.scanner.step with
  | .finished => (none, s)
  | .failed error next => (some (.error error), ⟨next, s.failed⟩)
  | .token t next => (some (.ok t), ⟨next, s.failed⟩)

theorem nextToken_eq_error {s stream : Stream} {error : ScanError} :
    s.nextToken = (some (.error error), stream) ↔
      ∃ next, s.scanner.step = .failed error next ∧ stream = ⟨next, s.failed⟩ := by
  unfold nextToken
  cases s.scanner.step with
  | finished | token => simp
  | failed found next =>
    constructor
    · rintro ⟨⟩; exact ⟨next, rfl, rfl⟩
    · rintro ⟨_, ⟨⟩, rfl⟩; rfl

/-- Hands out the next item; `none` is the end of the template, or comes after an error. -/
def next (s : Stream) : Option Item × Stream :=
  if s.failed then (none, s)
  else
    match s.scanner.step with
    | .finished => (none, s)
    | .failed error next => (some (.error error), ⟨next, true⟩)
    | .token t next => (some (.ok t), ⟨next, false⟩)

/-- All items still to be handed out; an error can only be the last one. -/
def toList (s : Stream) : List Item :=
  if s.failed then []
  else
    let ahead := s.scanner.drain
    ahead.1.map .ok ++ (ahead.2.map .error).toList

end Stream

end MailDialect.Token
