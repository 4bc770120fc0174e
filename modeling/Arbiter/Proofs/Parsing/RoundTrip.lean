import Arbiter.Proofs.Parsing.Loose
import Arbiter.Proofs.Parsing.Sound

/-! Rendering is undone by reading. Main statement: the text of an expression that was read is read back,
between brackets, as the same expression, contexts included. -/

namespace Arbiter.Syntax

open TokenKind (op)
open Syntax.Parser

/-- The tokens of a regular part are read as the part. -/
theorem isReadable_of_regular {part : Part} (h : Regular .strict part) : part.IsReadable := by
  induction h with
  | name h => exact Readable.name h
  | number h => exact Readable.number h
  | strings some spelled plain => exact Readable.strings some spelled plain
  | word w => exact Readable.word w
  | ellipsis => exact Readable.ellipsis
  | joinedStr allowed => exact allowed.elim
  | strayed allowed => exact absurd allowed Bool.false_ne_true
  | member rv other ha hv => exact Readable.member (.member rv other ha) hv ha
  | subscript rv ri hv hi => exact Readable.subscript (.subscript rv ri) hv hi
  | tuple regular h => exact Readable.tuple (.tuple regular) h
  | list regular h => exact Readable.list (.list regular) h
  | set some regular h => exact Readable.set (.set some regular) some h
  | dict regular h => exact Readable.dict (.dict regular) h
  | @binary left right o rl rr hl hr =>
    have regular : Regular .strict (.expr (.binary left o right)) := .binary rl rr
    by_cases power : o = .pow
    · subst power
      exact Readable.pow regular hl hr
    · exact Readable.binary power regular hl hr
  | @unary operand o ro ho =>
    have regular : Regular .strict (.expr (.unary o operand)) := .unary ro
    by_cases word : o = .not
    · subst word
      exact Readable.not regular ho
    · exact Readable.sign word regular ho
  | bool rf rs rr hf hs hr =>
    exact Readable.bool (.bool rf rs rr) hf (List.forall_mem_cons.2 ⟨hs, hr⟩)
  | compare some rl rr hl hr => exact Readable.compare (.compare some rl rr) some hl hr
  | call rf ra rk named hf ha hk => exact Readable.call (.call rf ra rk named) hf ha hk named
  | ifElse rt rb ro ht hb ho => exact Readable.ifElse (.ifElse rt rb ro) ht hb ho
  | lambda plain rd rb hd hb => exact Readable.lambda (.lambda plain rd rb) plain hd hb
  | listComp some re rg he hg => exact Readable.listComp (.listComp some re rg) some he hg
  | setComp some re rg he hg => exact Readable.setComp (.setComp some re rg) some he hg
  | generatorExp some re rg he hg => exact Readable.generatorExp (.generatorExp some re rg) some he hg
  | dictComp some rk rv rg hk hv hg => exact Readable.dictComp (.dictComp some rk rv rg) some hk hv hg
  | await r h => exact Readable.await (.await r) h
  | yield _ r h => exact Readable.yield (.yield rfl r) h
  | yieldFrom _ r h => exact Readable.yieldFrom (.yieldFrom rfl r) h
  | named hi _ r h => exact Readable.named (.named hi trivial r) hi h
  | starred _ h => exact readableItem_starred h
  | item _ h => exact readableItem_of_readable h
  | slice _ _ _ hl hu hs => exact readableEntry_slice hl hu hs
  | entry _ h => exact readableEntry_of_item h
  | noEntry => exact readableIndex_noEntry
  | entries some _ h => exact readableIndex_entries some h
  | index single _ h => exact readableIndex_of_entry single h
  | noClause => exact readableClauses_nil
  | clause _ ht _ _ _ hh hi hc hg => exact readableClauses_cons hh ht hi hc hg

/-- A text whose last token is an operator has a line end and an end marker after it. -/
theorem Scan.Reads.tokenize {a symbol : String} {ks : List TokenKind}
    (h : Scan.Reads 0 a (ks ++ [op symbol]) 0 []) {c : Char} {u : List Char} (chars : a.toList = c :: u)
    (first : c ∉ [' ', '\t', '\x0c', '\n', '\r', '#']) :
    ∃ ts, tokenize a = .ok ts ∧ ts.map (·.kind) = ks ++ [op symbol, .newline, .endMarker] := by
  obtain ⟨t, run, start, depth, rest, indents, tokens⟩ :=
    h.runs { Scan.start a with lineStart := false } rfl rfl (by rw [List.append_nil]; rfl)
  have tokens : t.tokens.map (·.kind) = op symbol :: ks.reverse := by
    rw [tokens, List.reverse_append]
    exact List.append_nil _
  obtain ⟨⟨k, pos⟩, before, found, last, more⟩ := List.map_eq_cons_iff.1 tokens
  obtain rfl : k = op symbol := last
  have finished : t.finish = .ok ((⟨.newline, t.pos⟩ :: t.tokens).reverse ++ [⟨.endMarker, t.pos⟩]) := by
    unfold Scan.finish
    rw [if_neg (by rw [depth]; decide), indents, found]
    simp [Scan.start]
  refine ⟨(⟨.newline, t.pos⟩ :: t.tokens).reverse ++ [⟨.endMarker, t.pos⟩], ?_, ?_⟩
  · show (Scan.start a).run >>= Scan.finish = _
    rw [Scan.run_start chars first, run, Scan.run_end start rest]
    exact finished
  · simp [tokens]

/-- A whole text that is an expression between brackets. -/
theorem takes_standalone {e : Expr} {n : Nat} (h : Readable e) (enough : e.kinds.length < n) :
    Takes (grammar (n + 1)).standalone (op "(" :: e.kinds ++ [op ")", .newline, .endMarker]) e
      [.endMarker] := by
  have ends : Stop Strength.test [.newline, .endMarker] := stop_cons (by decide) _
  have whole : Takes (grammar n).testRule
      (op "(" :: e.kinds ++ [op ")"] ++ [.newline, .endMarker]) e [.newline, .endMarker] :=
    h.inBrackets (s := Strength.test) enough (by decide) (by decide) (ends.mono (by decide))
      (Grammar.more_of_stop ends)
  have items : Takes (grammar n).itemsRule
      (op "(" :: e.kinds ++ [op ")"] ++ [.newline, .endMarker]) e [.newline, .endMarker] :=
    Takes.bind (takes_of_not_eat (by simp) whole) (takes_of_not_at (by simp) (takes_pure e))
  have split : op "(" :: e.kinds ++ [op ")", .newline, .endMarker] =
      op "(" :: e.kinds ++ [op ")"] ++ [.newline, .endMarker] := by simp
  rw [split]
  exact items.bind (takes_expectNewline.bind ((takes_at _).bind (takes_pure e)))

/-- The text of a regular expression is read as the expression. -/
theorem parseExpr_of_regular {e : Expr} (h : Regular .strict (.expr e)) :
    parseExpr ("(" ++ e.text ++ ")") = .ok e := by
  have rendered : Rendered Scan.reader e :=
    isRendered_of_regular (fun _ h => by cases h with | joinedStr allowed => cases allowed) rfl rfl h
  have readable : Readable e := isReadable_of_regular h
  have reads : Scan.Reads 0 ("(" ++ e.text ++ ")") (op "(" :: e.kinds ++ [op ")"]) 0 [] :=
    rendered.brackets
  have chars : ("(" ++ e.text ++ ")").toList = '(' :: (e.text ++ ")").toList := by simp
  obtain ⟨ts, tokens, kinds⟩ := reads.tokenize chars (by decide)
  have short := reads.short
  rw [List.length_append, List.length_cons] at short
  have whole := takes_standalone readable (n := ("(" ++ e.text ++ ")").length) (by omega)
  obtain ⟨ts', -, parsed⟩ := whole ts kinds
  unfold parseExpr
  rw [tokens]
  show ((grammarFor _).standalone ts >>= fun x => pure x.1) = _
  rw [grammarFor, parsed]
  rfl

/-- The text of an expression that was read, between brackets, is read as the same expression. -/
theorem parseExpr_text {source : String} {e : Expr} (h : parseExpr source = .ok e)
    (plain : e.isPlain false = true) : parseExpr ("(" ++ e.text ++ ")") = .ok e :=
  parseExpr_of_regular ((formed_of_parseExpr h).regular plain)

/-- Brackets that say nothing go and those that say something stay. -/
theorem parseExpr_text_starred : ∃ e, parseExpr "(not (a)) in (-b) ** (c[1:]), *d" = .ok e ∧
    e.isPlain false = true ∧ "(" ++ e.text ++ ")" = "(((not a) in (-b) ** c[1:], *d))" ∧
      parseExpr "(((not a) in (-b) ** c[1:], *d))" = .ok e := by
  have known : (match parseExpr "(not (a)) in (-b) ** (c[1:]), *d" with
      | .ok e => e.isPlain false && "(" ++ e.text ++ ")" == "(((not a) in (-b) ** c[1:], *d))"
      | .error _ => false) = true := by decide +kernel
  cases read : parseExpr "(not (a)) in (-b) ** (c[1:]), *d" with
  | error fault =>
    rw [read] at known
    cases known
  | ok e =>
    rw [read, Bool.and_eq_true, beq_iff_eq] at known
    obtain ⟨plain, text⟩ := known
    exact ⟨e, rfl, plain, text, text ▸ parseExpr_text read plain⟩

end Arbiter.Syntax
