import XuleLang.Proofs.Scope.Traversal

/-!
Whose declarations are whose.

The grammar puts declarations of functions, constants and output attributes at the top of a file,
and all that declares a variable below a node that opens a scope. So the scopes hold variables and
nothing else, and what belongs to the whole rule set is no variable. This is so in every file,
whatever is wrong with its text.
-/

namespace XuleLang

open Place

/-- The nodes above a place are as its region says: nothing at the top of a file lies in a scope,
and all in the region of a scope does. -/
structure Region.Fits (file : Nat) (g : Region) (above : List Tree) : Prop where
  outside : g = .file → scopesAmong file above = []
  inside : g = .scope → scopesAmong file above ≠ []

variable {file : Nat} {g : Region} {above : List Tree}

/-- A node that opens no scope although its rule does is a block right below one that does. -/
theorem Place.opensScope_of_shared {p : Place} {r : Rule} (rule : p.cursor.tree.rule? = some r)
    (opens : r.opensScope) (shared : ¬p.opensScope) : ∃ parent above,
      p.cursor.above = parent :: above ∧ (⟨p.file, parent, above⟩ : Place).opensScope := by
  simp only [opensScope, isBodyOfRule, rule, opens, Option.any_some, Bool.true_and,
    Bool.not_eq_true', Bool.not_eq_false, Cursor.parent?] at shared
  cases around : p.cursor.above with
  | nil => simp [around] at shared
  | cons parent above =>
    simp only [around, List.head?_cons, Option.any_some, Bool.and_eq_true, Bool.or_eq_true,
      beq_iff_eq] at shared
    refine ⟨parent, above, rfl, ?_⟩
    obtain ⟨-, assertion | output⟩ := shared
    · exact opensScope_of_rule? assertion rfl (by simp)
    · exact opensScope_of_rule? output rfl (by simp)

/-- What is above the children of a node fits the region inside it. -/
theorem Region.Fits.below (fits : g.Fits file above) (id : Nat) (r : Rule) (span : Option Span)
    (cs : List Tree) : (g.below r).Fits file (.node id r span cs :: above) := by
  let p : Place := ⟨file, .node id r span cs, above⟩
  have nested (own : ¬p.opensScope) : scopesAmong file (p.cursor.tree :: above) =
      scopesAmong file above := if_neg own
  rw [Region.below]
  by_cases opens : r.opensScope
  · rw [if_pos opens]
    refine ⟨by simp, fun _ => ?_⟩
    by_cases own : p.opensScope
    · rw [show scopesAmong file (p.cursor.tree :: above) = _ from if_pos own]
      exact List.cons_ne_nil _ _
    -- A block that shares its scope lies right below the node that opened it.
    · obtain ⟨parent, rest, around, outer⟩ := opensScope_of_shared (p := p) rfl opens own
      rw [nested own, show above = parent :: rest from around, scopesAmong, if_pos outer]
      exact List.cons_ne_nil _ _
  · have own : ¬p.opensScope := by simp [opensScope, p, Tree.rule?, opens]
    rw [if_neg opens]
    split
    · exact ⟨by simp, by simp⟩
    · exact ⟨fun top => (nested own).trans (fits.outside top),
        fun scope => nested own ▸ fits.inside scope⟩

/-- What is declared in the scopes, and what at the top of files. -/
theorem Region.kind_of_admits {r : Rule} {token : TokenKind} {kind : BindingKind}
    (admitted : g.admits r) (declares : r.declares? = some (token, kind)) :
    g = .file ∧ kind ≠ .variableName ∨ g = .scope ∧ kind = .variableName := by
  cases g <;> cases r <;> simp_all [admits, Rule.isDeclaration, Rule.declares?] <;>
    simp [← declares.2]

mutual

/-- All places in a tree fit. -/
theorem Tree.IsPlaced.fits {g : Region} {above : List Tree} (fits : g.Fits file above) :
    (t : Tree) → t.IsPlaced g → ∀ p ∈ placesUnder file above t,
      ∃ g' : Region, g'.Fits file p.cursor.above ∧ p.cursor.tree.IsPlaced g'
  | .leaf l, placed, p, member => by
    cases List.mem_singleton.mp member
    exact ⟨g, fits, placed⟩
  | .node id r span cs, placed, p, member => by
    rcases List.mem_cons.mp member with rfl | below
    · exact ⟨g, fits, placed⟩
    · cases placed with
      | node _ _ admitted parts => exact IsPlaced.fitsAll (fits.below id r span cs) cs parts p below

theorem Tree.IsPlaced.fitsAll {g : Region} {above : List Tree} (fits : g.Fits file above) :
    (ts : List Tree) → (∀ t ∈ ts, t.IsPlaced g) → ∀ p ∈ placesOfAll file above ts,
      ∃ g' : Region, g'.Fits file p.cursor.above ∧ p.cursor.tree.IsPlaced g'
  | [], _, p, member => nomatch member
  | t :: ts, placed, p, member => by
    obtain ⟨first, others⟩ := List.forall_mem_cons.mp placed
    rw [placesOfAll_cons] at member
    rcases List.mem_append.mp member with here | later
    · exact IsPlaced.fits fits t first p here
    · exact IsPlaced.fitsAll fits ts others p later

end

theorem Place.file_of_mem_scopesAmong {r : NodeRef} (member : r ∈ scopesAmong file above) :
    r.file = file := by
  induction above with
  | nil => cases member
  | cons n above ih =>
    rw [scopesAmong] at member
    split at member
    · rcases List.mem_cons.mp member with rfl | outer
      · rfl
      · exact ih outer
    · exact ih member

/-- Variables and nothing else belong to scopes, and those are in the file of the declaration. -/
structure Declaration.Belongs (d : Declaration) : Prop where
  kind : d.binding.kind = .variableName ↔ d.scope ≠ none
  file : ∀ r, d.scope = some r → d.binding.declaredAt.file = r.file

theorem belongs_of_fits {p : Place} (fits : g.Fits p.file p.cursor.above)
    (placed : p.cursor.tree.IsPlaced g) : ∀ d ∈ p.declarations, d.Belongs := by
  intro d member
  rcases List.mem_append.mp member with named | unasked
  · obtain ⟨b, found, rfl⟩ := List.mem_map.mp named
    simp only [Option.mem_toList, named?, Option.bind_eq_bind, Option.map_eq_some_iff,
      Option.bind_eq_some_iff, Option.pure_def, Option.some.injEq] at found
    obtain ⟨-, ⟨⟨token, kind⟩, ⟨r, rule, declares⟩, name, -, rfl⟩, rfl⟩ := found
    refine ⟨?_, fun r first => (file_of_mem_scopesAmong (List.mem_of_head? first)).symm⟩
    rw [Ne, List.head?_eq_none_iff]
    rcases Region.kind_of_admits (placed.admits rule) declares with ⟨top, other⟩ | ⟨scope, same⟩
    · simp [other, fits.outside top]
    · simp [same, fits.inside scope]
  · obtain ⟨b, found, rfl⟩ := List.mem_map.mp unasked
    simp only [Option.mem_toList, unasked?, Option.bind_eq_bind, Option.bind_eq_some_iff,
      Option.pure_def, Option.some.injEq] at found
    obtain ⟨name, -, first, -, rfl⟩ := found
    exact ⟨by simp, fun r same => by cases same; rfl⟩

/-- In every file the scopes hold the variables. -/
theorem RuleSet.belongs {s : RuleSet} (files : ∀ f ∈ s.files, f.tree.root.IsFile) :
    ∀ d ∈ s.declarations, d.Belongs := by
  intro d declared
  obtain ⟨p, member, declared⟩ := List.mem_flatMap.mp declared
  obtain ⟨⟨f, i⟩, read, here⟩ := List.mem_flatMap.mp member
  have isFile := files f (List.fst_mem_of_mem_zipIdx read)
  change p ∈ placesUnder i [] f.tree.root at here
  cases root : f.tree.root with
  | leaf l => rw [root] at isFile; cases isFile.rule
  | node id r span cs =>
    rw [root] at isFile here
    have fits : Region.file.Fits i [.node id r span cs] :=
      ⟨fun _ => scopes_of_root (p := ⟨i, .node id r span cs, []⟩) rfl isFile.rule, nofun⟩
    rcases List.mem_cons.mp here with rfl | below
    · rw [declarations_of_root isFile.rule] at declared
      cases declared
    · obtain ⟨g, fits, placed⟩ := Tree.IsPlaced.fitsAll fits cs isFile.placed p below
      obtain ⟨c, -, rfl⟩ := List.mem_map.mp below
      exact belongs_of_fits fits placed d declared

end XuleLang
