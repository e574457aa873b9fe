import SequenceChart.Dot.Print
import SequenceChart.Proofs.Enclosed

/-!
# Tokens of the graph language

How a text of the graph language falls into tokens. A machine reads one character after the other
and remembers only what it stands in:

* `Mode` is what it stands in, `Mode.step` takes one character, `Mode.run` a whole text;
* a bare word ends at the first character that is no letter of a word, a comment at the first star
  with a slash behind it;
* inside quotes a backslash takes the next character with it, and every other quote closes the
  text. `run_enclosed` says that the machine goes through an enclosed text, so that an escaped text,
  whatever it holds, is taken for one text token.
-/

namespace SequenceChart.Dot

open SequenceChart.Text

/-! ## 1. The machine -/

/-- What a text falls into. A quoted text is kept as it stands between its quotes. -/
inductive Token where
  | word (letters : List Char)
  | text (raw : List Char)
  | mark (c : Char)
  deriving DecidableEq, Repr

/-- What the machine stands in, with what it has read of it. -/
inductive Mode where
  /-- Between tokens. -/
  | free
  | word (letters : List Char)
  /-- Behind a slash that may open a comment. -/
  | slash
  | comment
  /-- Behind a star that may close the comment. -/
  | star
  | text (raw : List Char)
  /-- Behind a backslash inside quotes. -/
  | taken (raw : List Char)
  deriving DecidableEq, Repr

/-- A character of bare words. -/
def letter (c : Char) : Bool :=
  c.isAlphanum || c = '_'

/-- Tokens in front of what is read behind them. -/
def behind (ts : List Token) (read : List Token × Mode) : List Token × Mode :=
  (ts ++ read.1, read.2)

namespace Mode

/-- Reads a character that stands between tokens. -/
def enter (c : Char) : List Token × Mode :=
  if c.isWhitespace then ([], .free)
  else if letter c then ([], .word [c])
  else if c = '"' then ([], .text [])
  else if c = '/' then ([], .slash)
  else ([.mark c], .free)

/-- **Reads one character.** The tokens are those that are known to be over with it. -/
def step : Mode → Char → List Token × Mode
  | .free, c => enter c
  | .word w, c => if letter c then ([], .word (w ++ [c])) else behind [.word w] (enter c)
  | .slash, c => if c = '*' then ([], .comment) else behind [.mark '/'] (enter c)
  | .comment, c => if c = '*' then ([], .star) else ([], .comment)
  | .star, c =>
    if c = '/' then ([], .free) else if c = '*' then ([], .star) else ([], .comment)
  | .text raw, c =>
    if c = '"' then ([.text raw], .free)
    else if c = '\\' then ([], .taken raw)
    else ([], .text (raw ++ [c]))
  | .taken raw, c => ([], .text (raw ++ ['\\', c]))

/-- Reads a text, one character after the other. -/
def run : Mode → List Char → List Token × Mode
  | m, [] => ([], m)
  | m, c :: cs => behind (m.step c).1 (run (m.step c).2 cs)

/-- The tokens that are over at the end of the text. An open comment or an open quote is no
    token. -/
def last : Mode → Option (List Token)
  | .free => some []
  | .word w => some [.word w]
  | .slash => some [.mark '/']
  | _ => none

end Mode

/-- **The tokens of a text.** -/
def lex (cs : List Char) : Option (List Token) :=
  (Mode.run .free cs).2.last.map ((Mode.run .free cs).1 ++ ·)

/-! ## 2. Reading piece by piece -/

theorem behind_behind (ts us : List Token) (read : List Token × Mode) :
    behind ts (behind us read) = behind (ts ++ us) read := by
  unfold behind
  rw [List.append_assoc]

namespace Mode

/-- A text is read by reading its beginning and going on from there. -/
theorem run_append : ∀ (m : Mode) (cs ds : List Char),
    run m (cs ++ ds) = behind (run m cs).1 (run (run m cs).2 ds)
  | _, [], _ => rfl
  | m, c :: cs, ds => by
      rw [List.cons_append, run, run_append (m.step c).2 cs ds, behind_behind]
      rfl

/-- Going on behind a beginning whose reading is known. -/
theorem run_append_of {m m' : Mode} {cs : List Char} {ts : List Token} (h : run m cs = (ts, m'))
    (ds : List Char) : run m (cs ++ ds) = behind ts (run m' ds) := by
  rw [run_append, h]

/-- Blanks between tokens are passed over. -/
theorem run_blanks (cs : List Char) : ∀ k : Nat,
    run .free (List.replicate k ' ' ++ cs) = run .free cs
  | 0 => rfl
  | k + 1 => by
      rw [List.replicate_succ, List.cons_append]
      exact run_blanks cs k

/-- A mark is a token of its own. -/
theorem run_mark {c : Char} (h : enter c = ([.mark c], .free)) (cs : List Char) :
    run .free (c :: cs) = behind [.mark c] (run .free cs) := by
  show behind (enter c).1 (run (enter c).2 cs) = _
  rw [h]

/-! ## 3. Bare words -/

theorem run_word_of_letters : ∀ {w : List Char}, (∀ c ∈ w, letter c = true) →
    ∀ read cs : List Char, run (.word read) (w ++ cs) = run (.word (read ++ w)) cs
  | [], _, read, _ => by rw [List.append_nil, List.nil_append]
  | c :: w, h, read, cs => by
      have hc : step (.word read) c = ([], .word (read ++ [c])) := if_pos (h c List.mem_cons_self)
      have ih := run_word_of_letters (fun d hd => h d (List.mem_cons_of_mem c hd)) (read ++ [c]) cs
      rw [List.cons_append, run, hc]
      show run (.word (read ++ [c])) (w ++ cs) = _
      rw [ih, List.append_assoc, List.singleton_append]

theorem not_whitespace_of_letter {c : Char} (h : letter c = true) : c.isWhitespace = false := by
  by_cases hw : c.isWhitespace = true
  · simp only [Char.isWhitespace, Bool.or_eq_true, decide_eq_true_eq] at hw
    rcases hw with ((rfl | rfl) | rfl) | rfl <;> exact absurd h (by decide)
  · simpa using hw

/-- A bare word is read as a whole, up to its end. -/
theorem run_letters {w : List Char} (hne : w ≠ []) (h : ∀ c ∈ w, letter c = true)
    (cs : List Char) : run .free (w ++ cs) = run (.word w) cs := by
  cases w with
  | nil => exact absurd rfl hne
  | cons c w =>
    have hc : letter c = true := h c List.mem_cons_self
    have henter : enter c = ([], .word [c]) := by
      unfold enter
      rw [not_whitespace_of_letter hc, hc]
      rfl
    show behind (enter c).1 (run (enter c).2 (w ++ cs)) = _
    rw [henter]
    exact run_word_of_letters (fun d hd => h d (List.mem_cons_of_mem c hd)) [c] cs

/-- A bare word ends where no letter follows. -/
theorem run_word_end {c : Char} (h : letter c = false) (w cs : List Char) :
    run (.word w) (c :: cs) = behind [.word w] (run .free (c :: cs)) := by
  have hc : step (.word w) c = behind [.word w] (enter c) := if_neg (by rw [h]; decide)
  rw [run, hc]
  rfl

/-! ## 4. Quoted texts -/

/-- **An enclosed text neither closes the quotes nor takes what stands behind it.** -/
theorem run_enclosed {body : List Char} (h : Enclosed body) (raw cs : List Char) :
    run (.text raw) (body ++ cs) = run (.text (raw ++ body)) cs := by
  induction h generalizing raw with
  | nothing => rw [List.nil_append, List.append_nil]
  | @taken c body _ ih =>
    show run (.text (raw ++ ['\\', c])) (body ++ cs) = _
    rw [ih, List.append_assoc]
    rfl
  | @plain c body hb hq _ ih =>
    have hc : step (.text raw) c = ([], .text (raw ++ [c])) := by
      rw [step, if_neg hq, if_neg hb]
    rw [List.cons_append, run, hc]
    show run (.text (raw ++ [c])) (body ++ cs) = _
    rw [ih, List.append_assoc]
    rfl

/-- A quoted text is one token. -/
theorem run_quoted (t cs : List Char) :
    run .free (quoted t ++ cs) = behind [.text (escape t)] (run .free cs) := by
  unfold quoted
  rw [List.cons_append, List.cons_append, List.append_assoc]
  show run (.text []) (escape t ++ '"' :: cs) = _
  rw [run_enclosed (enclosed_escape t)]
  rfl

/-- A quote in a comment opens no text, and a comment in a text is part of it. -/
example : lex "x /* \" */ \"/*\\\"\"".toList =
    some [.word ['x'], .text ['/', '*', '\\', '"']] := by decide

end Mode

end SequenceChart.Dot
