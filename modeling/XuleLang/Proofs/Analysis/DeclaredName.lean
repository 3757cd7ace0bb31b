import XuleLang.Proofs.Analysis.Imports
import XuleLang.Proofs.Syntax.ReadFile

/-!
Names that are declared.

What a node declares is named by a child of the node, which is a token of the kind that such names
have. What a construct binds unasked is named by no token of the text. In both cases constants and
variables begin with a dollar sign, and functions and output attributes do not.
-/

namespace XuleLang

variable {name : String} {kind : BindingKind}

/-- The kind of the tokens that name what is declared. -/
def BindingKind.token : BindingKind → TokenKind
  | constant | variableName => .variableName
  | function | outputAttribute => .identifier

theorem Rule.token_of_declares? {r : Rule} {token : TokenKind}
    (declares : r.declares? = some (token, kind)) : token = kind.token := by
  cases r <;> simp [Rule.declares?] at declares <;> obtain ⟨rfl, rfl⟩ := declares <;> rfl

theorem Rule.spells_of_implicitVariable? {r : Rule} (binds : r.implicitVariable? = some name) :
    TokenKind.variableName.Spells name.toList := by
  cases r <;> simp [Rule.implicitVariable?] at binds <;> subst binds <;> exact ⟨_, rfl⟩

theorem Tree.mem_of_childOfKind? {t : Tree} {k : TokenKind} {l : Leaf}
    (found : t.childOfKind? k = some l) : .leaf l ∈ t.children ∧ l.token.kind = k := by
  obtain ⟨c, member, here⟩ := List.exists_of_findSome?_eq_some found
  cases c with
  | node => cases here
  | leaf l' =>
    obtain ⟨same, rfl⟩ : l'.token.kind = k ∧ l' = l := by simpa using here
    exact ⟨member, same⟩

namespace Place

variable {p : Place} {l : Leaf} {d : Declaration} {b : Binding}

theorem mem_of_named? (named : p.named? = some (l, kind)) :
    .leaf l ∈ p.cursor.tree.children ∧ l.token.kind = kind.token := by
  obtain ⟨⟨token, kind'⟩, declares, named⟩ := Option.bind_eq_some_iff.mp named
  obtain ⟨l', found, named⟩ := Option.bind_eq_some_iff.mp named
  cases named
  obtain ⟨r, -, declares⟩ := Option.bind_eq_some_iff.mp declares
  obtain ⟨child, same⟩ := Tree.mem_of_childOfKind? found
  exact ⟨child, same.trans (Rule.token_of_declares? declares)⟩

/-- What is declared at a place is named there, or bound there unasked. -/
theorem exists_of_mem_declarations (member : d ∈ p.declarations) :
    (∃ l, p.named? = some (l, d.binding.kind) ∧ d.binding.name = l.token.text ∧
      d.binding.declaredAt = ⟨p.file, l.id⟩) ∨ p.unasked? = some d.binding := by
  rcases List.mem_append.mp member with declared | bound
  · obtain ⟨b, entry, rfl⟩ := List.mem_map.mp declared
    obtain ⟨⟨l, kind⟩, named, rfl⟩ := Option.map_eq_some_iff.mp (Option.mem_toList.mp entry)
    exact .inl ⟨l, named, rfl, rfl⟩
  · obtain ⟨b, entry, rfl⟩ := List.mem_map.mp bound
    exact .inr (Option.mem_toList.mp entry)

theorem exists_of_unasked? (unasked : p.unasked? = some b) : ∃ r first,
    p.cursor.tree.rule? = some r ∧ r.implicitVariable? = some b.name ∧
      p.cursor.tree.firstLeaf? = some first ∧ b.kind = .variableName ∧
      b.declaredAt = ⟨p.file, first.id⟩ := by
  obtain ⟨name, binds, unasked⟩ := Option.bind_eq_some_iff.mp unasked
  obtain ⟨r, rule, binds⟩ := Option.bind_eq_some_iff.mp binds
  obtain ⟨first, begins, unasked⟩ := Option.bind_eq_some_iff.mp unasked
  cases unasked
  exact ⟨r, first, rule, binds, begins, rfl, rfl⟩

end Place

/-- Names are declared by tokens that are spelled as such names are. -/
theorem RuleFile.IsRead.spells_of_declares {f : RuleFile} (read : f.IsRead)
    (declares : f.Declares name kind) : kind.token.Spells name.toList := by
  obtain ⟨c, member, declared⟩ := declares
  obtain ⟨d, here, names⟩ := Place.mem_declared_iff.mp declared
  obtain ⟨rfl, rfl⟩ : d.binding.kind = kind ∧ d.binding.name = name := by
    simpa [Declaration.declares] using names
  rcases Place.exists_of_mem_declarations here with ⟨l, named, same, -⟩ | unasked
  · obtain ⟨child, ofKind⟩ := Place.mem_of_named? named
    rw [same, ← ofKind]
    have place := Tree.child_mem_cursorsUnder _ c member _ child
    have leaf := (Tree.leaves_sublist_of_mem_cursorsUnder _ _ place).subset (.head _)
    exact read.spells _ (List.mem_map_of_mem leaf)
  · obtain ⟨r, first, -, binds, -, kind, -⟩ := Place.exists_of_unasked? unasked
    rw [kind]
    exact Rule.spells_of_implicitVariable? binds

end XuleLang
