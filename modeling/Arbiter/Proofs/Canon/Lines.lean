import Arbiter.Proofs.Canon.CutPattern

/-! Lines of tokens and what is indented under them, and the texts that go together to a line. Main
statements: lines are told apart by their tokens, and the lines of a text are read as lines of tokens. -/

namespace Arbiter.Syntax

open TokenKind (newline indent)

/-- A line by its tokens, and the lines one step further in under it. -/
inductive Line
  | mk (head : List TokenKind) (inner : List Line)

def Line.head : Line → List TokenKind
  | .mk head _ => head

mutual

/-- The tokens of a line that stands `d` steps in. -/
def Line.tokens (d : Nat) : Line → List TokenKind
  | .mk head inner => newline :: (List.replicate (4 * d) indent ++ (head ++ lineTokens (d + 1) inner))

def lineTokens (d : Nat) : List Line → List TokenKind
  | [] => []
  | l :: ls => l.tokens d ++ lineTokens d ls

end

/-- No token inside of the line or of those under it comes from a line break. -/
inductive Line.IsFlat : Line → Prop
  | mk {head : List TokenKind} {inner : List Line} (flat : ∀ k ∈ head, k.isLayout = false)
    (lines : ∀ l ∈ inner, l.IsFlat) : IsFlat (.mk head inner)

/-- Another line begins here, or nothing is left. -/
def Breaks (K : List TokenKind) : Prop := ∀ k ∈ K.head?, k = newline

/-- What is left begins with a line that stands less than `d` steps in, if there is one. -/
def Outside (d : Nat) (K : List TokenKind) : Prop :=
  K = [] ∨ ∃ m rest, m < 4 * d ∧ K = newline :: (List.replicate m indent ++ rest) ∧
    rest.head? ≠ some indent

section Cuts

variable {d : Nat} {K K' : List TokenKind} {ls : List Line}

theorem Outside.breaks (h : Outside d K) : Breaks K := by
  rcases h with rfl | ⟨m, rest, -, rfl, -⟩
  · nofun
  · rintro _ ⟨⟩
    rfl

theorem Outside.succ (h : Outside d K) : Outside (d + 1) K := by
  rcases h with rfl | ⟨m, rest, less, rfl, other⟩
  · exact .inl rfl
  · exact .inr ⟨m, rest, by omega, rfl, other⟩

theorem breaks_lineTokens (h : Breaks K) : ∀ ls : List Line, Breaks (lineTokens d ls ++ K)
  | [] => h
  | .mk _ _ :: _ => by
    rintro _ ⟨⟩
    rfl

theorem head?_flat {head : List TokenKind} (flat : ∀ k ∈ head, k.isLayout = false) (h : Breaks K) :
    (head ++ K).head? ≠ some indent := by
  cases head with
  | nil =>
    intro first
    cases h indent first
  | cons k head =>
    rintro ⟨⟩
    cases flat indent List.mem_cons_self

theorem outside_lineTokens (flat : ∀ l ∈ ls, l.IsFlat) (h : Outside d K) :
    Outside (d + 1) (lineTokens d ls ++ K) := by
  cases ls with
  | nil => exact h.succ
  | cons l ls =>
    cases flat l List.mem_cons_self with
    | @mk head inner inside lines =>
      refine .inr ⟨4 * d, head ++ (lineTokens (d + 1) inner ++ (lineTokens d ls ++ K)), by omega, ?_, ?_⟩
      · simp [lineTokens, Line.tokens]
      · exact head?_flat inside (breaks_lineTokens (breaks_lineTokens h.breaks ls) inner)

/-- The blanks at the front of a line are counted. -/
theorem cut_indent {a b : List TokenKind} (ha : a.head? ≠ some indent) (hb : b.head? ≠ some indent) :
    ∀ {m n : Nat}, List.replicate m indent ++ a = List.replicate n indent ++ b → m = n ∧ a = b
  | 0, 0, same => ⟨rfl, same⟩
  | 0, n + 1, same => by
    rw [List.replicate_succ] at same
    exact absurd (congrArg List.head? same) ha
  | m + 1, 0, same => by
    rw [List.replicate_succ] at same
    exact absurd (congrArg List.head? same).symm hb
  | m + 1, n + 1, same => by
    rw [List.replicate_succ, List.replicate_succ, List.cons_append, List.cons_append] at same
    exact (cut_indent ha hb (List.cons.inj same).2).imp_left (congrArg (· + 1))

/-- A stretch ends where the first member stands that is of another sort. -/
theorem cut_while {α : Type} {p : α → Bool} {xs ys L L' : List α} (hx : ∀ x ∈ xs, p x = true)
    (hy : ∀ y ∈ ys, p y = true) (stop : ∀ x ∈ L.head?, p x = false) (stop' : ∀ y ∈ L'.head?, p y = false)
    (same : xs ++ L = ys ++ L') : xs = ys ∧ L = L' := by
  have front : ∀ {xs L : List α}, (∀ x ∈ xs, p x = true) → (∀ x ∈ L.head?, p x = false) →
      (xs ++ L).takeWhile p = xs := by
    intro xs L hx stop
    rw [List.takeWhile_append_of_pos hx]
    cases L with
    | nil => rw [List.takeWhile_nil, List.append_nil]
    | cons y L => rw [List.takeWhile_cons_of_neg (by simpa using stop y rfl), List.append_nil]
  obtain rfl : xs = ys := by rw [← front hx stop, same, front hy stop']
  exact ⟨rfl, List.append_cancel_left same⟩

/-- A line ends where the next one begins. -/
theorem cut_head {a b : List TokenKind} (ha : ∀ k ∈ a, k.isLayout = false) (hb : ∀ k ∈ b, k.isLayout = false)
    (h : Breaks K) (h' : Breaks K') (same : a ++ K = b ++ K') : a = b ∧ K = K' := by
  have apart : ∀ {L : List TokenKind}, Breaks L → ∀ k ∈ L.head?, (!k.isLayout) = false := by
    intro L h k first
    rw [h k first]
    rfl
  exact cut_while (p := fun k => !k.isLayout) (fun k hk => by simp [ha k hk]) (fun k hk => by simp [hb k hk])
    (apart h) (apart h') same

theorem Outside.ne (h : Outside d K) {l : Line} (flat : l.IsFlat) (breaks : Breaks K') :
    K ≠ l.tokens d ++ K' := by
  cases flat with
  | @mk head inner inside lines =>
    rw [Line.tokens, List.cons_append, List.append_assoc, List.append_assoc]
    have other := head?_flat inside (breaks_lineTokens (d := d + 1) breaks inner)
    rcases h with rfl | ⟨m, rest, less, rfl, first⟩
    · exact List.cons_ne_nil _ _ ∘ Eq.symm
    · intro same
      obtain ⟨rfl, -⟩ := cut_indent first other (List.cons.inj same).2
      exact Nat.lt_irrefl _ less

mutual

theorem cut_line : ∀ (d : Nat) (l l' : Line) {K K' : List TokenKind}, l.IsFlat → l'.IsFlat →
    Outside (d + 1) K → Outside (d + 1) K' → l.tokens d ++ K = l'.tokens d ++ K' → l = l' ∧ K = K'
  | d, .mk head inner, .mk head' inner', K, K', .mk flat lines, .mk flat' lines', outside, outside', same => by
    simp only [Line.tokens, List.cons_append, List.append_assoc, List.cons.injEq, true_and] at same
    have breaks := breaks_lineTokens (d := d + 1) outside.breaks inner
    have breaks' := breaks_lineTokens (d := d + 1) outside'.breaks inner'
    obtain ⟨-, same⟩ := cut_indent (head?_flat flat breaks) (head?_flat flat' breaks') same
    obtain ⟨rfl, rest⟩ := cut_head flat flat' breaks breaks' same
    obtain ⟨rfl, left⟩ := cut_lines (d + 1) inner inner' lines lines' outside outside' rest
    exact ⟨rfl, left⟩

/-- Lines are told apart by their tokens. -/
theorem cut_lines : ∀ (d : Nat) (ls ls' : List Line) {K K' : List TokenKind}, (∀ l ∈ ls, l.IsFlat) →
    (∀ l ∈ ls', l.IsFlat) → Outside d K → Outside d K' →
    lineTokens d ls ++ K = lineTokens d ls' ++ K' → ls = ls' ∧ K = K'
  | _, [], [], _, _, _, _, _, _, same => ⟨rfl, same⟩
  | d, [], l :: ls, K, K', _, flat, outside, outside', same => by
    rw [lineTokens, List.nil_append, lineTokens, List.append_assoc] at same
    exact absurd same (outside.ne (flat l List.mem_cons_self) (breaks_lineTokens outside'.breaks ls))
  | d, l :: ls, [], K, K', flat, _, outside, outside', same => by
    rw [lineTokens, lineTokens, List.nil_append, List.append_assoc] at same
    exact absurd same.symm (outside'.ne (flat l List.mem_cons_self) (breaks_lineTokens outside.breaks ls))
  | d, l :: ls, l' :: ls', K, K', flat, flat', outside, outside', same => by
    obtain ⟨hl, hls⟩ := List.forall_mem_cons.1 flat
    obtain ⟨hl', hls'⟩ := List.forall_mem_cons.1 flat'
    rw [lineTokens, lineTokens, List.append_assoc, List.append_assoc] at same
    obtain ⟨rfl, rest⟩ := cut_line d l l' hl hl' (outside_lineTokens hls outside)
      (outside_lineTokens hls' outside') same
    obtain ⟨rfl, left⟩ := cut_lines d ls ls' hls hls' outside outside' rest
    exact ⟨rfl, left⟩

end

end Cuts

/-! The text of lines. -/

/-- The characters of lines that stand `d` steps in, each with the break before it. -/
def lineChars (d : Nat) (texts : List String) : List Char :=
  texts.flatMap fun t => '\n' :: (List.replicate (4 * d) ' ' ++ t.toList)

theorem lineChars_indentLines (d : Nat) (texts : List String) :
    lineChars d (indentLines texts) = lineChars (d + 1) texts := by
  have four : List.replicate (4 * (d + 1)) ' ' = List.replicate (4 * d) ' ' ++ "    ".toList :=
    List.replicate_add (4 * d) 4 ' '
  simp only [lineChars, indentLines, List.flatMap_map, String.toList_append, four, List.append_assoc]

/-- A line ends here. -/
def LineEnds (rest : List Char) : Prop := ∀ c ∈ rest.head?, c = '\n'

/-- The text of a line is read as the tokens. -/
structure HeadReads (t : String) (ks : List TokenKind) : Prop where
  front : t.toList.head? ≠ some ' '
  shows : ∀ {rest}, LineEnds rest → Shows [] t ks [] rest

/-- The lines of text are read as lines of tokens, however far in they stand. -/
structure Presents (texts : List String) (ls : List Line) : Prop where
  flat : ∀ l ∈ ls, l.IsFlat
  empty : texts = [] ↔ ls = []
  reads : ∀ d {rest}, LineEnds rest →
    readKinds (.code []) (lineChars d texts ++ rest) = lineTokens d ls ++ readKinds (.code []) rest

section Texts

variable {texts texts' : List String} {ls ls' : List Line} {rest : List Char} {d : Nat}

theorem lineEnds_lineChars (h : LineEnds rest) : LineEnds (lineChars d texts ++ rest) := by
  cases texts with
  | nil => exact h
  | cons t texts =>
    rintro _ ⟨⟩
    rfl

theorem lineTokens_append (d : Nat) (ls ls' : List Line) :
    lineTokens d (ls ++ ls') = lineTokens d ls ++ lineTokens d ls' := by
  induction ls with
  | nil => rfl
  | cons l ls ih => rw [List.cons_append, lineTokens, ih, lineTokens, List.append_assoc]

namespace Presents

theorem nil : Presents [] [] := ⟨by simp, by simp, fun _ _ _ => rfl⟩

theorem append (h : Presents texts ls) (h' : Presents texts' ls') :
    Presents (texts ++ texts') (ls ++ ls') where
  flat := List.forall_mem_append.2 ⟨h.flat, h'.flat⟩
  empty := by rw [List.append_eq_nil_iff, List.append_eq_nil_iff, h.empty, h'.empty]
  reads d rest ends := by
    have chars : lineChars d (texts ++ texts') = lineChars d texts ++ lineChars d texts' :=
      List.flatMap_append
    rw [chars, List.append_assoc, h.reads d (lineEnds_lineChars ends), h'.reads d ends, lineTokens_append,
      List.append_assoc]

/-- A line and the lines under it. -/
theorem node {t : String} {ks : List TokenKind} (head : HeadReads t ks) (h : Presents texts ls) :
    Presents (t :: indentLines texts) [.mk ks ls] where
  flat := by
    have shown : Shows [] t ks [] [] := head.shows nofun
    exact List.forall_mem_singleton.2 (.mk shown.flat h.flat)
  empty := by simp
  reads d rest ends := by
    have inner : LineEnds (lineChars (d + 1) texts ++ rest) := lineEnds_lineChars ends
    have chars : lineChars d (t :: indentLines texts) =
        '\n' :: (List.replicate (4 * d) ' ' ++ (t.toList ++ lineChars (d + 1) texts)) := by
      rw [← lineChars_indentLines]
      simp [lineChars]
    have off : Off (· == ' ') (t.toList ++ (lineChars (d + 1) texts ++ rest)) := by
      intro c first
      rw [beq_eq_false_iff_ne]
      rintro rfl
      cases chars : t.toList with
      | nil =>
        rw [chars] at first
        cases inner ' ' first
      | cons c u =>
        rw [chars] at first
        exact head.front (by rw [chars]; exact first)
    have blanks := @takeWhile_append_off (· == ' ') (List.replicate (4 * d) ' ') _ (by simp) off
    have step : Spot.codeStep [] '\n'
        (List.replicate (4 * d) ' ' ++ (t.toList ++ (lineChars (d + 1) texts ++ rest))) =
          some (newline :: List.replicate (4 * d) indent, .code [], 4 * d) := by
      unfold Spot.codeStep
      rw [if_neg (by decide), if_pos rfl, blanks, List.length_replicate]
    have left : (List.replicate (4 * d) ' ' ++ (t.toList ++ (lineChars (d + 1) texts ++ rest))).drop
        (4 * d) = t.toList ++ (lineChars (d + 1) texts ++ rest) :=
      List.drop_left' List.length_replicate
    rw [chars, List.cons_append, List.append_assoc, List.append_assoc,
      readKinds_step (s := .code []) step, left, (head.shows inner).reads, h.reads (d + 1) ends]
    simp [lineTokens, Line.tokens]

theorem line {t : String} {ks : List TokenKind} (head : HeadReads t ks) : Presents [t] [.mk ks []] :=
  node head nil

end Presents

end Texts

end Arbiter.Syntax

/-! Texts on a line, and how they go together. Each is read as its tokens as long as nothing follows that
would make its last token longer. -/

namespace Arbiter.Syntax

open TokenKind (op name)

/-- An expression that may be missing, after `mark`. -/
def optionalKinds (mark : List TokenKind) : Option Expr → List TokenKind
  | none => []
  | some e => mark ++ e.kinds

def asyncKinds (isAsync : Bool) : List TokenKind := if isAsync then [name "async"] else []

/-- The text is read as the tokens wherever an expression may end. -/
def IsRead (t : String) (ks : List TokenKind) : Prop := ∀ ⦃rest⦄, Ended rest → Shows [] t ks [] rest

/-- The same of a text that may begin a line. -/
structure Legible (t : String) (ks : List TokenKind) : Prop where
  front : Front t
  reads : IsRead t ks

/-- The same of a text behind which there may be an expression. -/
structure Trails (t : String) (ks : List TokenKind) : Prop where
  apart : ∀ ⦃rest⦄, Ended rest → Ended (t.toList ++ rest)
  reads : IsRead t ks

/-- A sign or a word between expressions. -/
structure Divides (t : String) (ks : List TokenKind) : Prop where
  apart : ∀ rest, Ended (t.toList ++ rest)
  reads : ∀ rest, Shows [] t ks [] rest

section Texts

variable {a b w : String} {ks ls : List TokenKind} {e t : Expr} {o : Option Expr} {rest : List Char}

theorem LineEnds.ended (h : LineEnds rest) : Ended rest := by
  cases rest with
  | nil => exact off_nil _
  | cons c rest =>
    obtain rfl := h c rfl
    have apart : Ended ("\n".toList ++ rest) := ended_append rfl (by decide)
    exact apart

theorem Legible.headReads (h : Legible a ks) : HeadReads a ks where
  front blank := by
    obtain ⟨c, first, other⟩ := h.front
    rw [first] at blank
    cases blank
    exact other List.mem_cons_self
  shows ends := h.reads ends.ended

theorem IsRead.append (ha : IsRead a ks) (hb : Trails b ls) : IsRead (a ++ b) (ks ++ ls) :=
  fun _ ends => (ha (hb.apart ends)).append (hb.reads ends)

theorem Legible.append (ha : Legible a ks) (hb : Trails b ls) : Legible (a ++ b) (ks ++ ls) :=
  ⟨ha.front.append, ha.reads.append hb⟩

theorem Trails.append (ha : Trails a ks) (hb : Trails b ls) : Trails (a ++ b) (ks ++ ls) where
  apart rest ends := by
    rw [String.toList_append, List.append_assoc]
    exact ha.apart (hb.apart ends)
  reads := ha.reads.append hb

theorem isRead_empty : IsRead "" [] := fun _ _ => ⟨rfl, nofun⟩

theorem trails_empty : Trails "" [] := ⟨fun _ ends => ends, isRead_empty⟩

theorem Divides.before (h : Divides a ks) (hb : IsRead b ls) : Trails (a ++ b) (ks ++ ls) where
  apart rest _ := by
    rw [String.toList_append, List.append_assoc]
    exact h.apart _
  reads _ ends := (h.reads _).append (hb ends)

/-! Words and signs. -/

theorem divides_word (h : w ∈ grammarWords) : Divides (" " ++ w ++ " ") [name w] :=
  ⟨fun _ => ended_padded, fun _ => reads_padded (R := shownReader) h⟩

theorem divides_comma : Divides ", " [op ","] :=
  ⟨fun _ => ended_append (a := ", ") rfl (by decide), fun _ =>
    Shows.append (reads_comma (R := shownReader)) Shows.blank⟩

theorem divides_colon : Divides ": " [op ":"] :=
  ⟨fun _ => ended_colonBlank, fun _ => reads_colonBlank (R := shownReader) (by decide)⟩

theorem divides_sign (h : w ∈ operators) (tails : ' ' ∉ opTails w)
    (flat : (w ∉ ["(", "[", "\x7b", ")", "]", "\x7d"] ∧ w ∉ [":", ":="]) ∧ w ≠ ".") :
    Divides (" " ++ w ++ " ") [op w] :=
  ⟨fun _ => ended_padded, fun _ => Shows.append (Shows.append Shows.blank
    (reads_op (R := shownReader) h (opEnds_append (a := " ") rfl tails flat.2) flat.1)) Shows.blank⟩

theorem divides_equals : Divides " = " [op "="] := divides_sign (w := "=") (by decide) (by decide) (by decide)

theorem trails_colon : Trails ":" [op ":"] where
  apart _ _ := ended_colon
  reads rest ends := by
    refine Shows.symbol (by decide) (fun c hc => ⟨fun tail => ?_, nofun⟩) (by decide) (by decide)
    have apart := ends c hc
    have tails : opTails ":" = ['='] := by decide
    rw [tails, List.mem_singleton] at tail
    subst tail
    simp [sticks] at apart

theorem Trails.colon (h : Trails a ks) : Trails (a ++ ":") (ks ++ [op ":"]) := h.append trails_colon

theorem legible_word (h : w ∈ grammarWords) : Legible w [name w] :=
  ⟨(spells_word h).isFront nofun, fun _ ends => reads_word (R := shownReader) h ends.apart⟩

/-- A word and what stands behind it. -/
theorem IsRead.after (h : IsRead a ks) (word : w ∈ grammarWords) : Legible (w ++ " " ++ a) (name w :: ks) :=
  ⟨((spells_word word).isFront nofun).append.append, fun _ ends =>
    Shows.append (reads_wordBlank (R := shownReader) word) (h ends)⟩

theorem Legible.async (h : Legible a ks) (isAsync : Bool) :
    Legible (asyncText isAsync ++ a) (asyncKinds isAsync ++ ks) := by
  cases isAsync with
  | false => exact (String.empty_append (s := a)).symm ▸ h
  | true => exact h.reads.after (w := "async") (by decide)

/-! Expressions and names. -/

theorem legible_of_regular (h : Regular .shown (.expr e)) : Legible e.text e.kinds :=
  have rendered : Rendered shownReader e := isRendered_of_shown h
  ⟨rendered.front, fun _ ends => rendered.reads (.inl (by decide)) ends.ends⟩

theorem legible_target {ctx : Context} {head : Expr} (h : Targets .shown ctx head t) :
    Legible t.text t.kinds := by
  have alike := alike_of_asTarget head h.same
  rw [alike.text, alike.kinds]
  exact legible_of_regular h.regular

theorem Legible.within (h : Legible e.text e.kinds) (least : Nat) :
    Legible (e.within least e.text) (e.kindsWithin least e.kinds) := by
  unfold Expr.within Expr.kindsWithin
  split
  · exact ⟨front_brackets (by decide), fun _ _ =>
      reads_brackets (R := shownReader) (σ := []) (by decide) (by decide) fun ends => h.reads ends⟩
  · exact h

theorem legible_name {id : String} (h : IsIdentifier id) : Legible id [name id] :=
  ⟨h.spells.isFront nofun, fun _ ends =>
    reads_spelled (R := shownReader) h.spells nofun rfl (off_glues_of_apart ends.apart)⟩

theorem Divides.optional (h : Divides a ks) (he : ∀ e ∈ o, IsRead e.text e.kinds) :
    Trails (optionalText a o) (optionalKinds ks o) := by
  cases o with
  | none => exact trails_empty
  | some e => exact h.before (he e rfl)

theorem divides_blank : Divides " " [] := ⟨fun _ => ended_blank, fun _ => Shows.blank⟩

theorem trails_bound {o : Option String} (h : ∀ id ∈ o, IsIdentifier id) :
    Trails (optionalName " as " o) (boundKinds o) := by
  cases o with
  | none => exact trails_empty
  | some id => exact (divides_word (w := "as") (by decide)).before (legible_name (h id rfl)).reads

theorem isRead_items {α : Type} {xs : List α} {text : α → String} {kinds : α → List TokenKind}
    (h : ∀ x ∈ xs, IsRead (text x) (kinds x)) : IsRead (commaJoined (xs.map text)) (commaKinds (xs.map kinds)) :=
  fun _ ends => reads_items (R := shownReader) (readsAll_map fun x hx _ ends => h x hx ends) ends

end Texts

end Arbiter.Syntax
