import Arbiter.Proofs.Canon.Reading
import Arbiter.Proofs.Canon.Retrace
import Arbiter.Proofs.Parsing.RoundTrip

/-! Trees at the front of a list of tokens. Tokens that begin with the tokens of a tree do not begin with
those of another tree, as long as what follows goes on with neither. Main statement: this holds of
expressions in canonical form. -/

namespace Arbiter.Syntax

open TokenKind (op name)
open Syntax.Parser

/-- The tokens of `x` and of `y` stand at the front of the same tokens only if they are one, where `P`
holds of what follows. -/
def Cut {α : Type} (kinds : α → List TokenKind) (P : List TokenKind → Prop) (x y : α) : Prop :=
  ∀ ⦃K K'⦄, P K → P K' → kinds x ++ K = kinds y ++ K' → x = y ∧ K = K'

section Lists

variable {α : Type} {kinds : α → List TokenKind} {P : List TokenKind → Prop} {K K' : List TokenKind}
  {xs ys : List α} {sep : TokenKind}

theorem Cut.mono {Q : List TokenKind → Prop} {x y : α} (h : Cut kinds P x y) (le : ∀ K, Q K → P K) :
    Cut kinds Q x y := fun _ _ stop stop' => h (le _ stop) (le _ stop')

/-- Nothing follows either of them. -/
theorem closed_eq {ks ls : List TokenKind} (same : ks = ls) : ks ++ [] = ls ++ [] := congrArg (· ++ []) same

/-- Items with a separator between each two. -/
theorem cut_separated {x y : α} (cut : ∀ a ∈ x :: xs, ∀ b ∈ y :: ys, Cut kinds P a b)
    (between : ∀ K, P (sep :: K)) (last : P K) (last' : P K') (ends : headOf K ≠ sep)
    (ends' : headOf K' ≠ sep)
    (same : kinds x ++ (xs.flatMap (sep :: kinds ·) ++ K) = kinds y ++ (ys.flatMap (sep :: kinds ·) ++ K')) :
    x :: xs = y :: ys ∧ K = K' := by
  have more : ∀ {zs : List α} {K}, P K → P (zs.flatMap (sep :: kinds ·) ++ K) := by
    intro zs K last
    cases zs with
    | nil => exact last
    | cons z zs => exact between _
  induction xs generalizing x y ys with
  | nil =>
    obtain ⟨rfl, rest⟩ := cut x List.mem_cons_self y List.mem_cons_self (more last) (more last') same
    cases ys with
    | nil => exact ⟨rfl, rest⟩
    | cons z ys => exact absurd (congrArg headOf rest) ends
  | cons x' xs ih =>
    obtain ⟨rfl, rest⟩ := cut x List.mem_cons_self y List.mem_cons_self (more last) (more last') same
    cases ys with
    | nil => exact absurd (congrArg headOf rest).symm ends'
    | cons y' ys =>
      rw [List.flatMap_cons, List.flatMap_cons, List.append_assoc, List.append_assoc, List.cons_append,
        List.cons_append, List.cons.injEq] at rest
      obtain ⟨whole, left⟩ := ih (fun a ha b hb => cut a (.tail _ ha) b (.tail _ hb)) rest.2
      exact ⟨congrArg (x :: ·) whole, left⟩

/-- Items between commas, up to one of the marks. -/
theorem cut_commas (marks : List TokenKind) (cut : ∀ a ∈ xs, ∀ b ∈ ys, Cut kinds P a b)
    (some : ∀ a, a ∈ xs ∨ a ∈ ys → ∀ K, headOf (kinds a ++ K) ∉ marks) (between : ∀ K, P (op "," :: K))
    (follows : ∀ K, headOf K ∈ marks → P K) (other : op "," ∉ marks) (last : headOf K ∈ marks)
    (last' : headOf K' ∈ marks) (same : commaKinds (xs.map kinds) ++ K = commaKinds (ys.map kinds) ++ K') :
    xs = ys ∧ K = K' := by
  have ends : ∀ {K}, headOf K ∈ marks → headOf K ≠ op "," := by
    rintro K h comma
    exact other (comma ▸ h)
  cases xs with
  | nil =>
    cases ys with
    | nil => exact ⟨rfl, same⟩
    | cons y ys =>
      rw [List.map_nil, commaKinds, List.nil_append, List.map_cons, commaKinds, List.append_assoc] at same
      exact absurd (same ▸ last) (some y (.inr List.mem_cons_self) _)
  | cons x xs =>
    cases ys with
    | nil =>
      rw [List.map_nil, commaKinds, List.nil_append, List.map_cons, commaKinds, List.append_assoc] at same
      exact absurd (same ▸ last') (some x (.inl List.mem_cons_self) _)
    | cons y ys =>
      simp only [List.map_cons, commaKinds, List.flatMap_map, List.append_assoc] at same
      exact cut_separated cut between (follows K last) (follows K' last') (ends last) (ends last') same

/-- Something that may be missing, after a mark. -/
theorem cut_maybe {mark : TokenKind} {o o' : Option α} (cut : ∀ a ∈ o, ∀ b ∈ o', Cut kinds P a b) (last : P K)
    (last' : P K') (other : headOf K ≠ mark) (other' : headOf K' ≠ mark)
    (same : o.elim [] (mark :: kinds ·) ++ K = o'.elim [] (mark :: kinds ·) ++ K') : o = o' ∧ K = K' := by
  cases o with
  | none =>
    cases o' with
    | none => exact ⟨rfl, same⟩
    | some b => exact absurd (congrArg headOf same) other
  | some a =>
    cases o' with
    | none => exact absurd (congrArg headOf same).symm other'
    | some b => exact (cut a rfl b rfl last last' (List.cons.inj same).2).imp_left (congrArg some)

/-- Items one after the other, which begin as nothing does that follows them. -/
theorem cut_items (cut : ∀ a ∈ xs, ∀ b ∈ ys, Cut kinds P a b) {Q : List TokenKind → Prop}
    (starts : ∀ a, a ∈ xs ∨ a ∈ ys → ∀ K, ¬Q (kinds a ++ K)) (between : ∀ a, a ∈ xs ∨ a ∈ ys → ∀ K, P (kinds a ++ K))
    (follows : ∀ K, Q K → P K) (last : Q K) (last' : Q K')
    (same : xs.flatMap kinds ++ K = ys.flatMap kinds ++ K') : xs = ys ∧ K = K' := by
  induction xs generalizing ys with
  | nil =>
    cases ys with
    | nil => exact ⟨rfl, same⟩
    | cons y ys =>
      rw [List.flatMap_nil, List.nil_append, List.flatMap_cons, List.append_assoc] at same
      exact absurd (same ▸ last) (starts y (.inr List.mem_cons_self) _)
  | cons x xs ih =>
    cases ys with
    | nil =>
      rw [List.flatMap_nil, List.nil_append, List.flatMap_cons, List.append_assoc] at same
      exact absurd (same ▸ last') (starts x (.inl List.mem_cons_self) _)
    | cons y ys =>
      have more : ∀ {zs : List α} {K}, (∀ z ∈ zs, z ∈ x :: xs ∨ z ∈ y :: ys) → Q K → P (zs.flatMap kinds ++ K) := by
        intro zs K members last
        cases zs with
        | nil => exact follows K last
        | cons z zs =>
          rw [List.flatMap_cons, List.append_assoc]
          exact between z (members z List.mem_cons_self) _
      rw [List.flatMap_cons, List.flatMap_cons, List.append_assoc, List.append_assoc] at same
      obtain ⟨rfl, rest⟩ := cut x List.mem_cons_self y List.mem_cons_self
        (more (fun z hz => .inl (.tail _ hz)) last) (more (fun z hz => .inr (.tail _ hz)) last') same
      obtain ⟨whole, left⟩ := ih (fun a ha b hb => cut a (.tail _ ha) b (.tail _ hb))
        (fun a ha => starts a (ha.imp (.tail _) (.tail _)))
        (fun a ha => between a (ha.imp (.tail _) (.tail _))) rest
      exact ⟨congrArg (x :: ·) whole, left⟩

end Lists

/-! Expressions. -/

section Expressions

variable {e e' : Expr} {least : Nat}

theorem Regular.outline (h : Regular .shown (.expr e)) : Regular .strict (.expr e.outline) :=
  regular_outline rfl rfl (fun _ => IsPiecePlaceholder.isIdentifier) h

theorem Regular.retrace (h : Regular .shown (.expr e)) : e.outline.retrace = e :=
  isRetraced_of_regular rfl h

theorem Regular.begins_shown (h : Regular .shown (.expr e)) : Begins e.strength e.kinds := by
  have begins := h.outline.begins
  rwa [strength_outline, kinds_outline] at begins

/-- An expression where an operand has to bind at least as tightly as `least`. -/
theorem cut_within (h : Regular .shown (.expr e)) (h' : Regular .shown (.expr e'))
    (lower : Strength.named ≤ least) (upper : least ≤ Strength.atom) :
    Cut (fun e => e.kindsWithin least e.kinds) (Stop least) e e' := by
  intro K K' stop stop' same
  -- Both outlines are what the parser reads from the tokens.
  have whole : ∀ {e K n}, Regular .shown (.expr e) → Stop least K →
      (e.kindsWithin least e.kinds).length ≤ n →
      Takes ((grammar n).level least) (e.kindsWithin least e.kinds ++ K) e.outline K := by
    intro e K n h stop enough
    have readable : Readable e.outline := isReadable_of_regular h.outline
    have kinds := kindsWithin_outline least (kinds_outline e)
    rw [← kinds] at enough ⊢
    exact readable.whole upper enough lower (Nat.le_refl _) stop
  have left := whole h stop (Nat.le_max_left _ (e'.kindsWithin least e'.kinds).length)
  have right := whole h' stop' (Nat.le_max_right (e.kindsWithin least e.kinds).length _)
  obtain ⟨outlines, rest⟩ := left.unique (same ▸ right)
  exact ⟨by rw [← h.retrace, outlines, h'.retrace], rest⟩

theorem Regular.strength_shown (h : Regular .shown (.expr e)) : Strength.named ≤ e.strength := by
  cases h with
  | yield allowed => cases allowed
  | yieldFrom allowed => cases allowed
  | @unary _ o => cases o <;> exact Nat.le_of_ble_eq_true rfl
  | @binary _ _ o => cases o <;> exact Nat.le_of_ble_eq_true rfl
  | @bool o => cases o <;> exact Nat.le_of_ble_eq_true rfl
  | _ => exact Nat.le_of_ble_eq_true rfl

theorem kindsWithin_of_le (le : least ≤ e.strength) : e.kindsWithin least e.kinds = e.kinds :=
  if_neg (Nat.not_lt_of_le le)

/-- An expression that binds at least as tightly as `least`. -/
theorem cut_tight (h : Regular .shown (.expr e)) (h' : Regular .shown (.expr e'))
    (lower : Strength.named ≤ least) (upper : least ≤ Strength.atom) (tight : least ≤ e.strength)
    (tight' : least ≤ e'.strength) : Cut Expr.kinds (Stop least) e e' := by
  intro K K' stop stop' same
  refine cut_within h h' lower upper stop stop' ?_
  simpa only [kindsWithin_of_le tight, kindsWithin_of_le tight'] using same

/-- An expression that stands alone. -/
theorem cut_whole (h : Regular .shown (.expr e)) (h' : Regular .shown (.expr e')) :
    Cut Expr.kinds (Stop Strength.named) e e' :=
  cut_tight h h' (Nat.le_refl _) (by decide) h.strength_shown h'.strength_shown

end Expressions

end Arbiter.Syntax
