import XuleLang.Token.Basic
import Mathlib.Data.List.Induction

/-!
Brackets among tokens.

An opening brace or quote is unmatched until something closes it, and what closes closes the
innermost opener that is unmatched (`unmatched`). Tokens are balanced if every opener in them is
closed in them by its own kind of closer, with balanced tokens in between. Tokens that leave openers
open are balanced between these (`LeavesOpen`).

Nothing here looks at the text or at a lexer. That tokens are nested follows from what each of them
closes (`leavesOpen_filter`), where closing braces that close nothing are left out.
-/

namespace XuleLang

/-- Opening quotes and braces. -/
def TokenKind.opens (k : TokenKind) : Bool := k == .stringOpen || k == .punctuator .lbrace

/-- Closing quotes and braces. -/
def TokenKind.closes (k : TokenKind) : Bool := k == .stringClose || k == .punctuator .rbrace

namespace Token

/-- The quote that an opening quote is. -/
def quote (o : Token) : Char := o.text.toList.headD '"'

/-- A brace is closed by a brace, and a quote by the same quote. -/
inductive IsClosedBy (o c : Token) : Prop
  | brace (opens : o.kind = .punctuator .lbrace) (closes : c.kind = .punctuator .rbrace)
  | quote (q : Char) (opens : o.kind = .stringOpen ∧ o.text = String.ofList [q])
      (closes : c.kind = .stringClose ∧ c.text = String.ofList [q])

end Token

/-- The openers that stand unmatched behind tokens, the innermost first. -/
def unmatched (ts : List Token) : List Token :=
  ts.foldl (fun outer t =>
    if t.kind.opens then t :: outer else if t.kind.closes then outer.tail else outer) []

/-- Tokens in which every opener is closed, and nothing else. -/
inductive Balanced : List Token → Prop
  | nil : Balanced []
  | other {t : Token} (opens : t.kind.opens = false) (closes : t.kind.closes = false) :
      Balanced [t]
  | enclosed {o c : Token} {inside : List Token} (closed : o.IsClosedBy c)
      (balanced : Balanced inside) : Balanced (o :: inside ++ [c])
  | append {ts us : List Token} (first : Balanced ts) (second : Balanced us) : Balanced (ts ++ us)

/-- Tokens with the openers that they leave open, the innermost first. Between these the tokens are
balanced. -/
inductive LeavesOpen : List Token → List Token → Prop
  | balanced {ts : List Token} (balanced : Balanced ts) : LeavesOpen ts []
  | opener {front outer inside : List Token} {o : Token} (front_open : LeavesOpen front outer)
      (balanced : Balanced inside) : LeavesOpen (front ++ o :: inside) (o :: outer)

variable {ts us outer : List Token} {t o : Token}

theorem unmatched_concat (ts : List Token) (t : Token) : unmatched (ts ++ [t]) =
    if t.kind.opens then t :: unmatched ts
    else if t.kind.closes then (unmatched ts).tail else unmatched ts := by
  simp [unmatched]

/-- What is unmatched behind tokens are openers among them. -/
theorem opens_of_mem_unmatched (member : o ∈ unmatched ts) : o ∈ ts ∧ o.kind.opens = true := by
  induction ts using List.reverseRecOn with
  | nil => cases member
  | append_singleton ts t ih =>
    have earlier (before : o ∈ unmatched ts) : o ∈ ts ++ [t] ∧ o.kind.opens = true :=
      (ih before).imp_left (List.mem_append_left _)
    rw [unmatched_concat] at member
    split at member
    next opens =>
      rcases List.mem_cons.mp member with rfl | before
      · exact ⟨by simp, opens⟩
      · exact earlier before
    next =>
      split at member
      · exact earlier (List.mem_of_mem_tail member)
      · exact earlier member

namespace LeavesOpen

theorem append (ends : LeavesOpen ts outer) (behind : Balanced us) :
    LeavesOpen (ts ++ us) outer := by
  cases ends with
  | balanced balanced => exact .balanced (balanced.append behind)
  | opener front inside =>
    rw [List.append_assoc, List.cons_append]
    exact .opener front (inside.append behind)

/-- One opener more. -/
theorem concat (ends : LeavesOpen ts outer) (o : Token) : LeavesOpen (ts ++ [o]) (o :: outer) :=
  .opener ends .nil

/-- What closes the innermost opener has balanced tokens before it, back to that opener. -/
theorem uncons (ends : LeavesOpen ts (o :: outer)) :
    ∃ front inside, ts = front ++ o :: inside ∧ LeavesOpen front outer ∧ Balanced inside := by
  cases ends with
  | opener front inside => exact ⟨_, _, rfl, front, inside⟩

theorem close {c : Token} (ends : LeavesOpen ts (o :: outer)) (closed : o.IsClosedBy c) :
    LeavesOpen (ts ++ [c]) outer := by
  obtain ⟨front, inside, rfl, before, balanced⟩ := ends.uncons
  rw [List.append_assoc]
  exact before.append (.enclosed closed balanced)

end LeavesOpen

/-- A token behind others is a closing brace where nothing is unmatched, and counts as loose, or it
closes the innermost opener if it closes. -/
inductive IsMatched (loose : Token → Bool) (front : List Token) (t : Token) : Prop
  | loose (closes : t.kind = .punctuator .rbrace) (nothing : unmatched front = [])
      (counts : loose t = true)
  | closes (o : Token) (outer : List Token) (innermost : unmatched front = o :: outer)
      (closed : o.IsClosedBy t) (counts : loose t = false)
  | other (closes : t.kind.closes = false) (counts : loose t = false)

variable {loose : Token → Bool}

/-- Tokens of which each fits behind those before it are nested, but for the loose ones, and what
they leave open are the openers that are unmatched. -/
theorem leavesOpen_filter
    (fits : ∀ front t back, ts = front ++ t :: back → IsMatched loose front t) :
    LeavesOpen (ts.filter (!loose ·)) (unmatched ts) := by
  induction ts using List.reverseRecOn with
  | nil => exact .balanced .nil
  | append_singleton ts t ih =>
    have before := ih fun front u back split => fits front u (back ++ [t]) (by simp [split])
    rw [List.filter_append, unmatched_concat]
    cases fits ts t [] rfl with
    | loose closes nothing counts =>
      simpa [closes, nothing, counts, TokenKind.opens, TokenKind.closes] using before
    | closes o outer innermost closed counts =>
      rw [innermost] at before
      have closing : t.kind.opens = false ∧ t.kind.closes = true := by
        cases closed with
        | brace opens closes => simp [closes, TokenKind.opens, TokenKind.closes]
        | quote q opens closes => simp [closes.1, TokenKind.opens, TokenKind.closes]
      simpa [counts, closing, innermost] using before.close closed
    | other closes counts =>
      cases opens : t.kind.opens with
      | true => simpa [counts, closes, opens] using before.concat t
      | false => simpa [counts, closes, opens] using before.append (.other opens closes)

/-- Each closer that is not loose has its opener before it, with balanced tokens between the two. -/
theorem exists_opener_of_closes
    (fits : ∀ front t back, ts = front ++ t :: back → IsMatched loose front t)
    {front back : List Token} (split : ts.filter (!loose ·) = front ++ t :: back)
    (closes : t.kind.closes = true) :
    ∃ before o inside, front = before ++ o :: inside ∧ o.IsClosedBy t ∧ Balanced inside := by
  obtain ⟨first, second, rfl, rfl, behind⟩ := List.filter_eq_append_iff.mp split
  obtain ⟨between, last, rfl, dropped, kept, -⟩ := List.filter_eq_cons_iff.mp behind
  have here : LeavesOpen (first.filter (!loose ·)) (unmatched (first ++ between)) := by
    have same : (first ++ between).filter (!loose ·) = first.filter (!loose ·) := by
      rw [List.filter_append, List.filter_eq_nil_iff.mpr dropped, List.append_nil]
    rw [← same]
    exact leavesOpen_filter fun front u back split => fits front u (back ++ t :: last)
      (by rw [← List.append_assoc, split]; simp)
  cases fits (first ++ between) t last (by simp) with
  | loose _ _ counts => simp [counts] at kept
  | other still _ => simp [closes] at still
  | closes o outer innermost closed _ =>
    obtain ⟨before, inside, same, -, balanced⟩ := (innermost ▸ here).uncons
    exact ⟨before, o, inside, same, closed, balanced⟩

end XuleLang
