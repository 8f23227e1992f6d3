import MediaLink.Srcset.Candidate
import MediaLink.Text.Blank

namespace MediaLink.Srcset

open Text

def isSeparator (c : Char) : Bool := isBlank c || c == ','

/-- The descriptor tokens up to the first comma outside parentheses, and the text behind that comma.
Blanks outside parentheses part the tokens; parentheses do not nest. The token in progress is held
in reverse. -/
def tokens (inParens : Bool) (current : List Char) : List Char → List (List Char) × List Char
  | [] => (if current.isEmpty then [] else [current.reverse], [])
  | c :: rest =>
    if inParens then tokens (c != ')') (c :: current) rest
    else if isBlank c then
      if current.isEmpty then tokens false [] rest
      else (current.reverse :: (tokens false [] rest).1, (tokens false [] rest).2)
    else if c = ',' then (if current.isEmpty then [] else [current.reverse], rest)
    else tokens (c == '(') (c :: current) rest

theorem length_tokens_le (inParens : Bool) (current s : List Char) :
    (tokens inParens current s).2.length ≤ s.length := by
  induction s generalizing inParens current with
  | nil => simp [tokens]
  | cons c rest ih =>
    rw [tokens]
    split
    · exact Nat.le_succ_of_le (ih ..)
    · split
      · split
        · exact Nat.le_succ_of_le (ih ..)
        · exact Nat.le_succ_of_le (ih ..)
      · split
        · simp
        · exact Nat.le_succ_of_le (ih ..)

def trimCommas (s : List Char) : List Char := (s.reverse.dropWhile (· == ',')).reverse

/-- The candidates in the order of the text, `none` for each one with an invalid descriptor. A URL
runs to the next blank; when it ends in commas these end the candidate, otherwise descriptors
follow. -/
def candidates (s : List Char) : List (Option Candidate) :=
  match _ : s.dropWhile isSeparator with
  | [] => []
  | c :: t =>
    let url := (c :: t).takeWhile (!isBlank ·)
    let rest := t.dropWhile (!isBlank ·)
    if url.getLast? = some ',' then
      Candidate.ofTokens? (trimCommas url) [] :: candidates rest
    else
      Candidate.ofTokens? url (tokens false [] rest).1 :: candidates (tokens false [] rest).2
termination_by s.length
decreasing_by
  all_goals
    have hs : (c :: t).length ≤ s.length :=
      ‹s.dropWhile isSeparator = c :: t› ▸ (List.dropWhile_sublist _).length_le
    have hr : (t.dropWhile (!isBlank ·)).length ≤ t.length := (List.dropWhile_sublist _).length_le
    simp only [List.length_cons] at hs
  · omega
  · have := length_tokens_le false [] (t.dropWhile (!isBlank ·))
    omega

def parse (s : List Char) : List Candidate := (candidates s).filterMap id

def parseComplete? (s : List Char) : Option (List Candidate) := (candidates s).mapM id

end MediaLink.Srcset
