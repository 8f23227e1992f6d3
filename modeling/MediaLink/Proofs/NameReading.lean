import Mathlib.Data.List.Basic
import MediaLink.Proofs.ValidNames
import MediaLink.Script.Parser.Program

namespace MediaLink.Text

/-- No character is in both, as the ends of the ranges show. -/
theorem Ranges.has_eq_false_of_apart {rs ss : Ranges}
    (h : rs.all fun r => ss.all fun s => r.2 < s.1 || s.2 < r.1) {c : Char} (hc : rs.has c) :
    ss.has c = false := by
  obtain ⟨r, hr, hrc⟩ := List.any_eq_true.mp hc
  refine List.any_eq_false.mpr fun s hs hsc => ?_
  have hapart := List.all_eq_true.mp (List.all_eq_true.mp h r hr) s hs
  simp only [Bool.and_eq_true, decide_eq_true_eq, Bool.or_eq_true] at hrc hsc hapart
  omega

end MediaLink.Text

namespace MediaLink.Script

open Binding Text

namespace Cursor

theorem width_append (s t : List Char) : width (s ++ t) = width s + width t := by
  induction s with
  | nil => simp [width]
  | cons c s ih =>
    simp only [width, List.cons_append, List.map_cons, List.sum_cons] at ih ⊢
    omega

theorem behind_behind (k : Cursor) (s t : List Char) :
    (k.behind s).behind t = k.behind (s ++ t) := by
  simp [behind, width_append, Nat.add_assoc]

theorem rest_behind {k : Cursor} {s t : List Char} (h : k.rest = s ++ t) :
    (k.behind s).rest = t := by
  simp [behind, h]

end Cursor

theorem isSpace_of_isLineEnd {c : Char} (h : isLineEnd c) : isSpace c := by
  simp only [isLineEnd, Bool.or_eq_true, beq_iff_eq] at h
  obtain ((rfl | rfl) | rfl) | rfl := h <;> decide +kernel

theorem isSpace_of_isIdentifierStart {c : Char} (h : isIdentifierStart c) : isSpace c = false := by
  simp only [isIdentifierStart, Bool.or_eq_true, beq_iff_eq] at h
  obtain (rfl | rfl) | h := h
  · decide +kernel
  · decide +kernel
  · have hblank : isBlank c = false := Ranges.has_eq_false_of_apart (by decide +kernel) h
    have hzero : c ≠ '\u200b' := by
      rintro rfl
      revert h
      decide +kernel
    have hmark : c ≠ '\ufeff' := by
      rintro rfl
      revert h
      decide +kernel
    simp [isSpace, hblank, hzero, hmark]

/-- The character is no space and begins no comment. -/
structure EndsGap (c : Char) : Prop where
  space : isSpace c = false
  star : c ≠ '*'
  slash : c ≠ '/'

theorem endsGap_of_isIdentifierStart {c : Char} (h : isIdentifierStart c) : EndsGap c where
  space := isSpace_of_isIdentifierStart h
  star := by
    rintro rfl
    revert h
    decide +kernel
  slash := by
    rintro rfl
    revert h
    decide +kernel

theorem EndsGap.skip {c : Char} (h : EndsGap c) (g : Gap) (offset : Nat) (rest : List Char) :
    g.skip .space offset (c :: rest) = (g, ⟨c :: rest, offset⟩) := by
  have hlineEnd : isLineEnd c = false := by
    rw [← Bool.not_eq_true]
    intro hc
    exact Bool.false_ne_true (h.space.symm.trans (isSpace_of_isLineEnd hc))
  rw [Gap.skip]
  · simp [hlineEnd, h.space, h.slash]
  · exact fun _ hc _ => h.star hc
  · exact fun _ hc _ => h.slash hc

namespace Lexeme

theorem next_eq_read {k : Cursor} {c : Char} {rest : List Char} (hk : k.rest = c :: rest)
    (h : EndsGap c) :
    next k = ({ (read k).1 with gap := { isBelow := k.offset = 0 } }, (read k).2) := by
  have hskip : Gap.skip { isBelow := k.offset = 0 } .space k.offset k.rest =
      ({ isBelow := k.offset = 0 }, k) := by
    rw [hk, h.skip, ← hk]
  rw [next, hskip]

def spelled (k : Cursor) (token : Token) (s : List Char) : Lexeme × Cursor × Option SyntaxError :=
  (⟨token, ⟨k.offset, (k.behind s).offset⟩, { isBelow := k.offset = 0 }⟩, k.behind s, none)

theorem next_word {k : Cursor} {name rest : List Char}
    (hname : IsName isIdentifierStart isIdentifierPart name)
    (hk : k.rest = name ++ '\x7d' :: rest) :
    next k = spelled k (.word (String.ofList name)) name := by
  obtain ⟨c, tail, rfl, hstart⟩ := hname.head
  have hbrace : isIdentifierPart '\x7d' = false := by decide +kernel
  have htake : k.rest.takeWhile isIdentifierPart = c :: tail := by
    rw [hk, List.takeWhile_append_of_pos hname.part, List.takeWhile_cons_of_neg (by simp [hbrace]),
      List.append_nil]
  rw [next_eq_read hk (endsGap_of_isIdentifierStart hstart), read, htake]
  simp only [hk, List.cons_append, hstart, if_true]
  rfl

theorem next_brace {k : Cursor} {rest : List Char} (hk : k.rest = '\x7d' :: rest) :
    next k = spelled k (.mark "\x7d") ['\x7d'] := by
  have hstart : isIdentifierStart '\x7d' = false := by decide +kernel
  have hmark : mark ('\x7d' :: rest) = ['\x7d'] := by simp [mark, longMarks]
  have hread : read k = ((here k (.mark "\x7d") ['\x7d']).1, k.behind ['\x7d'], none) := by
    rw [read]
    simp only [hk, hstart, hmark]
    rfl
  rw [next_eq_read hk ⟨by decide +kernel, by decide, by decide⟩, hread]
  rfl

theorem next_quote {k : Cursor} {rest : List Char} (hk : k.rest = '`' :: rest) :
    next k = ({ (run (k.behind ['`']) k.offset true).1 with gap := { isBelow := k.offset = 0 } },
      (run (k.behind ['`']) k.offset true).2) := by
  have hstart : isIdentifierStart '`' = false := by decide +kernel
  have hread : read k = run (k.behind ['`']) k.offset true := by
    rw [read]
    simp only [hk, hstart]
    rfl
  rw [next_eq_read hk ⟨by decide +kernel, by decide, by decide⟩, hread]

end Lexeme

namespace Parser

/-- The state with the next token as its current one, behind one that ended at the offset. -/
def State.on (s : State) (next : Lexeme × Cursor × Option SyntaxError) (stop : Nat) : State :=
  { s with
    current := next.1
    after := next.2.1
    previousEnd := stop
    tokenErrors := s.tokenErrors ++ next.2.2.toList }

section Steps

variable {α β : Type} {s : State} {next : Lexeme × Cursor × Option SyntaxError} {stop : Nat}

theorem bind_eq_of_ok {m : Reader α} {f : α → Reader β} {s s' : State} {a : α}
    (h : m s = .ok (a, s')) : (m >>= f) s = f a s' := by
  change (Except.bind (m s) fun p => f p.1 p.2) = _
  rw [h]
  rfl

theorem bind_get (f : State → Reader α) :
    ((get : Reader State) >>= f) (s.on next stop) = f (s.on next stop) (s.on next stop) := rfl

theorem bind_token (f : Token → Reader α) :
    (token >>= f) (s.on next stop) = f next.1.token (s.on next stop) := rfl

theorem bind_isAt (m : String) (f : Bool → Reader α) :
    (isAt m >>= f) (s.on next stop) = f (next.1.token = .mark m) (s.on next stop) := rfl

theorem bind_isAtWord (w : String) (f : Bool → Reader α) :
    (isAtWord w >>= f) (s.on next stop) = f (next.1.token = .word w) (s.on next stop) := rfl

theorem bind_peek (f : Lexeme → Reader α) :
    (peek >>= f) (s.on next stop) = f (Lexeme.next next.2.1).1 (s.on next stop) := rfl

theorem bind_budget (f : Nat → Reader α) :
    (budget >>= f) (s.on next stop) = f (next.2.1.rest.length + 2) (s.on next stop) := rfl

theorem bind_eat_of_ne {m : String} (h : next.1.token ≠ .mark m) (f : Bool → Reader α) :
    (eat m >>= f) (s.on next stop) = f false (s.on next stop) := by
  refine bind_eq_of_ok ?_
  rw [eat, bind_isAt, decide_eq_false h]
  rfl

theorem advance_on (h : next.2.2 = none) :
    advance (s.on next stop) = .ok ((), s.on (Lexeme.next next.2.1) next.1.span.stop) := by
  change Except.ok _ = _
  simp [State.on, h]

theorem State.on_on (h : next.2.2 = none) (next' : Lexeme × Cursor × Option SyntaxError) :
    { s.on next stop with
      current := next'.1
      after := next'.2.1
      tokenErrors := (s.on next stop).tokenErrors ++ next'.2.2.toList } = s.on next' stop := by
  simp [State.on, h]

end Steps

namespace Expression

/-- A name without a meaning of its own anywhere. -/
structure IsPlainName (name : List Char) : Prop where
  isName : IsName isIdentifierStart isIdentifierPart name
  reserved : String.ofList name ∉ Token.reserved
  contextual : String.ofList name ∉ Token.contextual

structure IsBraced (k : Cursor) (name rest : List Char) : Prop extends IsPlainName name where
  text : k.rest = name ++ '\x7d' :: rest

/-- From the token at the cursor the reader gets the name, and no further than to the token behind
it. -/
def ReadsName (r : Reader Node) (k : Cursor) (name : List Char) : Prop :=
  ∀ s stop, r (State.on s (Lexeme.next k) stop) =
    .ok (.identifier (String.ofList name),
      s.on (Lexeme.next (k.behind name)) (k.behind name).offset)

namespace IsBraced

variable {k : Cursor} {name rest : List Char} (h : IsBraced k name rest) (n : Nested)

include h

theorem next : Lexeme.next k = Lexeme.spelled k (.word (String.ofList name)) name :=
  Lexeme.next_word h.isName h.text

theorem next_behind :
    Lexeme.next (k.behind name) = Lexeme.spelled (k.behind name) (.mark "\x7d") ['\x7d'] :=
  Lexeme.next_brace (Cursor.rest_behind h.text)

theorem word : (Lexeme.next k).1.token = .word (String.ofList name) := by
  rw [h.next]
  rfl

theorem brace : (Lexeme.next (k.behind name)).1.token = .mark "\x7d" := by
  rw [h.next_behind]
  rfl

theorem ne_of_mem_reserved {w : String} (hw : w ∈ Token.reserved) : String.ofList name ≠ w :=
  fun heq => h.reserved (heq ▸ hw)

theorem ne_of_mem_contextual {w : String} (hw : w ∈ Token.contextual) : String.ofList name ≠ w :=
  fun heq => h.contextual (heq ▸ hw)

theorem advance (s : State) (stop : Nat) : advance (s.on (Lexeme.next k) stop) =
    .ok ((), s.on (Lexeme.next (k.behind name)) (k.behind name).offset) := by
  rw [h.next, advance_on rfl]
  rfl

theorem primary : ReadsName (primary n) k name := by
  intro s stop
  -- Words that begin something else are told apart from names before anything is read.
  have hthis : String.ofList name ≠ "this" := h.ne_of_mem_reserved (by decide)
  have hnull : String.ofList name ≠ "null" := h.ne_of_mem_reserved (by decide)
  have htrue : String.ofList name ≠ "true" := h.ne_of_mem_reserved (by decide)
  have hfalse : String.ofList name ≠ "false" := h.ne_of_mem_reserved (by decide)
  have hfunction : String.ofList name ≠ "function" := h.ne_of_mem_reserved (by decide)
  have hclass : String.ofList name ≠ "class" := h.ne_of_mem_reserved (by decide)
  have hasync : String.ofList name ≠ "async" := h.ne_of_mem_contextual (by decide)
  rw [Expression.primary, bind_token, h.word]
  simp only
  rw [if_neg h.reserved, bind_peek, if_neg fun hboth => hasync hboth.1,
    bind_eq_of_ok (h.advance ..)]
  rfl

theorem suffixes (s : State) (stop : Nat) (e : Node) (isOptional : Bool) (fuel : Nat) :
    suffixes n e isOptional (fuel + 1) (s.on (Lexeme.next (k.behind name)) stop) =
      .ok ((e, isOptional), s.on (Lexeme.next (k.behind name)) stop) := by
  have hbrace := h.brace
  simp only [Expression.suffixes]
  rw [bind_eat_of_ne (by simp [hbrace]), if_neg Bool.false_ne_true,
    bind_eat_of_ne (by simp [hbrace]), if_neg Bool.false_ne_true, bind_isAt,
    if_neg (by simp [hbrace]), bind_eat_of_ne (by simp [hbrace]), if_neg Bool.false_ne_true,
    bind_token, hbrace]
  rfl

theorem leftHandSide : ReadsName (leftHandSide n) k name := by
  intro s stop
  rw [Expression.leftHandSide, bind_eq_of_ok (h.primary n s stop), bind_budget,
    bind_eq_of_ok (h.suffixes n ..)]
  rfl

theorem unary : ReadsName (unary n) k name := by
  intro s stop
  have hoperator : .word (String.ofList name) ∉ unaryOperators := by
    have hvoid : String.ofList name ≠ "void" := h.ne_of_mem_reserved (by decide)
    have htypeof : String.ofList name ≠ "typeof" := h.ne_of_mem_reserved (by decide)
    have hdelete : String.ofList name ≠ "delete" := h.ne_of_mem_reserved (by decide)
    simp [unaryOperators, hvoid, htypeof, hdelete]
  have hawait : String.ofList name ≠ "await" := h.ne_of_mem_contextual (by decide)
  have helement : isAtElement (s.on (Lexeme.next k) stop) =
      .ok (false, s.on (Lexeme.next k) stop) := by
    rw [isAtElement, bind_isAt, h.word]
    rfl
  rw [Expression.unary, bind_token, h.word, bind_get, if_neg hoperator,
    if_neg (by simpa using hawait), bind_eq_of_ok helement, if_neg Bool.false_ne_true,
    if_neg (by simp)]
  exact h.leftHandSide n s stop

theorem operations (s : State) (stop fuel : Nat) :
    operations n (fuel + 1) (s.on (Lexeme.next (k.behind name)) stop) =
      .ok ([], s.on (Lexeme.next (k.behind name)) stop) := by
  rw [Expression.operations, bind_token, h.brace]
  rfl

theorem binary : ReadsName (binary n) k name := by
  intro s stop
  rw [Expression.binary, bind_eq_of_ok (h.unary n s stop), bind_budget,
    bind_eq_of_ok (h.operations n ..)]
  rfl

theorem conditional : ReadsName (conditional n) k name := by
  intro s stop
  rw [Expression.conditional, bind_eq_of_ok (h.binary n s stop),
    bind_eat_of_ne (by simp [h.brace]), if_neg Bool.false_ne_true]
  rfl

theorem arrowHead? (s : State) (stop : Nat) : arrowHead? n (s.on (Lexeme.next k) stop) =
    .ok (none, s.on (Lexeme.next k) stop) := by
  have hbehind : (s.on (Lexeme.next k) stop).after = k.behind name := by
    rw [h.next]
    rfl
  have htoken : (s.on (Lexeme.next k) stop).current.token = .word (String.ofList name) := h.word
  simp [Expression.arrowHead?, htoken, hbehind, h.brace]

theorem asyncArrowHead? (s : State) (stop : Nat) :
    asyncArrowHead? n (s.on (Lexeme.next k) stop) = .ok (none, s.on (Lexeme.next k) stop) := by
  have hasync : String.ofList name ≠ "async" := h.ne_of_mem_contextual (by decide)
  have htoken : (s.on (Lexeme.next k) stop).current.token = .word (String.ofList name) := h.word
  simp [Expression.asyncArrowHead?, htoken, hasync]

theorem assignment : ReadsName (assignment n) k name := by
  intro s stop
  have hyield : String.ofList name ≠ "yield" := h.ne_of_mem_contextual (by decide)
  rw [Expression.assignment, bind_isAtWord, bind_get, if_neg (by simp [h.word, hyield]), bind_isAt,
    bind_get, if_neg (by simp [h.word]), bind_eq_of_ok (h.arrowHead? n s stop)]
  simp only
  rw [bind_eq_of_ok (h.asyncArrowHead? n s stop)]
  simp only
  rw [bind_eq_of_ok (h.conditional n s stop), bind_token, h.brace]
  simp only
  rw [if_neg (by decide)]
  rfl

theorem sequence (levels : Nat) : ReadsName (sequence (nested (levels + 1))) k name := by
  intro s stop
  have hassignment : ReadsName (nested (levels + 1)).assignment k name := h.assignment _
  rw [Parser.sequence, bind_eq_of_ok (hassignment s stop), bind_isAt, if_neg (by simp [h.brace])]
  rfl

theorem resumeTemplate (s : State) (stop : Nat) :
    resumeTemplate (s.on (Lexeme.next (k.behind name)) stop) =
      .ok ((), s.on (Lexeme.run (k.behind (name ++ ['\x7d'])) (k.behind name).offset false)
        stop) := by
  rw [Parser.resumeTemplate, bind_isAt, if_pos (by simp [h.brace]), h.next_behind, bind_get,
    ← Cursor.behind_behind]
  exact congrArg (fun s' => Except.ok ((), s')) (State.on_on rfl _)

theorem hole (levels : Nat) (s : State) (stop : Nat) :
    hole (nested (levels + 1)) (s.on (Lexeme.next k) stop) =
      .ok (.identifier (String.ofList name),
        s.on (Lexeme.run (k.behind (name ++ ['\x7d'])) (k.behind name).offset false)
          (k.behind name).offset) := by
  have hread : (do let e ← Parser.sequence (nested (levels + 1)); Parser.resumeTemplate; return e :
      Reader Node).run (s.on (Lexeme.next k) stop) = .ok (.identifier (String.ofList name),
        s.on (Lexeme.run (k.behind (name ++ ['\x7d'])) (k.behind name).offset false)
          (k.behind name).offset) := by
    refine (bind_eq_of_ok (h.sequence levels s stop)).trans ?_
    rw [bind_eq_of_ok (h.resumeTemplate ..)]
    rfl
  rw [Expression.hole, hread]

end IsBraced

end Expression

end Parser

end MediaLink.Script
