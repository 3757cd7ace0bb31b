import XuleLang.Proofs.Scope.Walk

/-!
Filling a symbol table is walking through all places.

A traversal of a tree hands the environment of a node down to the nodes below it. No two places
have one reference, so that nothing else is entered for a node meanwhile, and what is handed down is
what is found around the places there.
-/

namespace XuleLang

namespace Place

/-- The places of a tree that has the nodes `above` above it. -/
def placesUnder (file : Nat) (above : List Tree) (t : Tree) : List Place :=
  (t.cursorsUnder above).map (.mk file)

def placesOfAll (file : Nat) (above : List Tree) (ts : List Tree) : List Place :=
  (Tree.cursorsOfAll above ts).map (.mk file)

@[simp] theorem placesUnder_leaf (file : Nat) (above : List Tree) (l : Leaf) :
    placesUnder file above (.leaf l) = [⟨file, .leaf l, above⟩] := rfl

@[simp] theorem placesUnder_node (file : Nat) (above : List Tree) (id : Nat) (r : Rule)
    (span : Option Span) (cs : List Tree) : placesUnder file above (.node id r span cs) =
      ⟨file, .node id r span cs, above⟩ :: placesOfAll file (.node id r span cs :: above) cs := rfl

@[simp] theorem placesOfAll_nil (file : Nat) (above : List Tree) :
    placesOfAll file above [] = [] := rfl

@[simp] theorem placesOfAll_cons (file : Nat) (above : List Tree) (t : Tree) (ts : List Tree) :
    placesOfAll file above (t :: ts) = placesUnder file above t ++ placesOfAll file above ts := by
  simp [placesOfAll, placesUnder, Tree.cursorsOfAll]

/-- The places of files that are numbered from `n`. -/
def placesFrom (n : Nat) (fs : List RuleFile) : List Place :=
  (fs.zipIdx n).flatMap fun (f, i) => placesUnder i [] f.tree.root

end Place

open Place

namespace SymbolTable

variable {file : Nat} {parent : Tree} {above : List Tree} {ps qs : List Place}

/-- What is entered for other places changes nothing for a node. -/
theorem scopeOf?_ofPlaces_append {r : NodeRef} (other : r ∉ qs.map Place.ref) :
    (ofPlaces (ps ++ qs)).scopeOf? r = (ofPlaces ps).scopeOf? r := by
  induction qs generalizing ps with
  | nil => simp
  | cons q qs ih =>
    simp only [List.map_cons, List.mem_cons, not_or] at other
    rw [List.append_cons, ih other.2, ofPlaces_snoc, enter_scopeOf?_of_ne other.1]

/-- The environment around the children of a node stays while they are entered. -/
theorem envAround_ofPlaces_append (walk : Walk ps) (inside : ⟨file, parent, above⟩ ∈ ps)
    (distinct : ((ps ++ qs).map Place.ref).Nodup) :
    (ofPlaces (ps ++ qs)).envAround file (parent :: above) =
      (ofPlaces ps).envAround file (parent :: above) := by
  rw [List.map_append, List.nodup_append] at distinct
  refine envAround_congr fun n around => scopeOf?_ofPlaces_append fun later => ?_
  exact distinct.2.2 _ (walk.visited _ inside n around) _ later rfl

theorem fresh_of_nodup {p : Place} (distinct : ((ps ++ p :: qs).map Place.ref).Nodup) :
    p.ref ∉ ps.map Place.ref := by
  rw [List.map_append, List.nodup_append] at distinct
  exact fun early => distinct.2.2 _ early _ (List.mem_cons_self ..) rfl

mutual

/-- Visiting a node is walking through the places of its tree. -/
theorem visit_eq {parent : Tree} {above : List Tree} {ps : List Place} (walk : Walk ps)
    (inside : ⟨file, parent, above⟩ ∈ ps) : (n : Tree) →
    ((ps ++ placesUnder file (parent :: above) n).map Place.ref).Nodup →
    visit file parent ((ofPlaces ps).envAround file (parent :: above)) (ofPlaces ps) n =
      ofPlaces (ps ++ placesUnder file (parent :: above) n) ∧
    Walk (ps ++ placesUnder file (parent :: above) n)
  | .leaf l, distinct => by
    let p : Place := ⟨file, .leaf l, parent :: above⟩
    have plain : ¬p.opensScope := nofun
    rw [placesUnder_leaf, ofPlaces_snoc, enter_plain (p := p) rfl plain]
    exact ⟨rfl, .part walk (fresh_of_nodup distinct) rfl inside⟩
  | .node id r span cs, distinct => by
    let p : Place := ⟨file, .node id r span cs, parent :: above⟩
    have fresh : p.ref ∉ ps.map Place.ref := fresh_of_nodup distinct
    have further : Walk (ps ++ [p]) := .part walk fresh rfl inside
    rw [placesUnder_node, List.append_cons] at distinct ⊢
    obtain ⟨visited, through⟩ := visitAll_eq further (by simp [p]) cs distinct
    refine ⟨?_, through⟩
    rw [← visited, ofPlaces_snoc, visit]
    -- The traversal hands down the environment that the table of the walk gives the children.
    have env : ((ofPlaces ps).enter p).envAround file (p.cursor.tree :: parent :: above) = _ :=
      walk.charts.governingEnv_enter walk fresh rfl inside
    by_cases opens : p.opensScope
    · rw [env, if_pos opens, enter_opening (p := p) rfl opens]
      refine (if_pos opens).trans ?_
      simp only [declare_length]
      rfl
    · rw [env, if_neg opens, enter_plain (p := p) rfl opens]
      exact if_neg opens

theorem visitAll_eq {parent : Tree} {above : List Tree} {ps : List Place} (walk : Walk ps)
    (inside : ⟨file, parent, above⟩ ∈ ps) : (ns : List Tree) →
    ((ps ++ placesOfAll file (parent :: above) ns).map Place.ref).Nodup →
    visitAll file parent ((ofPlaces ps).envAround file (parent :: above)) (ofPlaces ps) ns =
      ofPlaces (ps ++ placesOfAll file (parent :: above) ns) ∧
    Walk (ps ++ placesOfAll file (parent :: above) ns)
  | [], _ => by simpa [visitAll] using walk
  | n :: ns, distinct => by
    rw [placesOfAll_cons, ← List.append_assoc] at distinct ⊢
    have first : ((ps ++ placesUnder file (parent :: above) n).map Place.ref).Nodup := by
      rw [List.map_append] at distinct
      exact (List.nodup_append.mp distinct).1
    obtain ⟨visited, further⟩ := visit_eq walk inside n first
    rw [visitAll, visited, ← envAround_ofPlaces_append walk inside first]
    exact visitAll_eq further (List.mem_append_left _ inside) ns distinct

end

end SymbolTable

/-- A walk comes to no place twice. -/
theorem Walk.distinct {ps : List Place} (walk : Walk ps) : (ps.map Place.ref).Nodup := by
  have snoc {ps : List Place} {p : Place} (fresh : p.ref ∉ ps.map Place.ref)
      (distinct : (ps.map Place.ref).Nodup) : ((ps ++ [p]).map Place.ref).Nodup := by
    rw [List.map_append, List.nodup_append]
    refine ⟨distinct, by simp, fun r early r' new => ?_⟩
    rw [List.map_singleton, List.mem_singleton] at new
    rintro rfl
    exact fresh (new ▸ early)
  induction walk with
  | start => exact .nil
  | file walk fresh top rule ih => exact snoc fresh ih
  | part walk fresh below inside ih => exact snoc fresh ih

namespace SymbolTable

variable {ps : List Place} {i : Nat} {f : RuleFile}

/-- Adding a file is walking through its places. -/
theorem addFile_eq (walk : Walk ps) (earlier : ∀ p ∈ ps, p.file < i) (isFile : f.tree.root.IsFile) :
    (ofPlaces ps).addFile i f = ofPlaces (ps ++ placesUnder i [] f.tree.root) ∧
    Walk (ps ++ placesUnder i [] f.tree.root) := by
  -- No number occurs twice in a file, and earlier places are in other files.
  have distinct : ((ps ++ placesUnder i [] f.tree.root).map Place.ref).Nodup := by
    rw [List.map_append, List.nodup_append]
    refine ⟨walk.distinct, ?_, fun r early r' own same => ?_⟩
    · have refs : (placesUnder i [] f.tree.root).map Place.ref =
          (f.tree.root.subtrees.map Tree.id).map (.mk i) := by
        rw [← Tree.map_tree_cursorsUnder []]
        simp [placesUnder, Place.ref, Function.comp_def]
      rw [refs]
      refine List.Pairwise.map _ (fun a b apart same => ?_) isFile.distinct
      exact apart (NodeRef.mk.inj same).2
    · obtain ⟨p, member, rfl⟩ := List.mem_map.mp early
      obtain ⟨q, here, rfl⟩ := List.mem_map.mp own
      obtain ⟨c, -, rfl⟩ := List.mem_map.mp here
      exact absurd (congrArg NodeRef.file same) (Nat.ne_of_lt (earlier p member))
  rw [addFile]
  cases root : f.tree.root with
  | leaf l => rw [root] at isFile; cases isFile.rule
  | node id r span cs =>
    let p : Place := ⟨i, .node id r span cs, []⟩
    rw [root, placesUnder_node] at distinct
    rw [placesUnder_node, List.append_cons ps]
    have fresh : p.ref ∉ ps.map Place.ref := fresh_of_nodup distinct
    rw [root] at isFile
    have further : Walk (ps ++ [p]) := .file walk fresh rfl isFile.rule
    rw [List.append_cons] at distinct
    obtain ⟨visited, through⟩ := visitAll_eq further (by simp [p]) cs distinct
    refine ⟨?_, through⟩
    have env : ((ofPlaces ps).enter p).envAround i [p.cursor.tree] = globalEnv :=
      walk.charts.governingEnv_enter_root fresh rfl
    rw [← visited, ofPlaces_snoc, env, enter_root (p := p) rfl]
    rfl

/-- Adding files is walking through the places of all of them. -/
theorem addFiles_eq {fs : List RuleFile} {n : Nat} (walk : Walk ps)
    (earlier : ∀ p ∈ ps, p.file < n) (files : ∀ f ∈ fs, f.tree.root.IsFile) :
    (fs.zipIdx n).foldl (fun t (f, i) => t.addFile i f) (ofPlaces ps) =
      ofPlaces (ps ++ placesFrom n fs) ∧
    Walk (ps ++ placesFrom n fs) := by
  induction fs generalizing n ps with
  | nil => simpa [placesFrom] using walk
  | cons f fs ih =>
    obtain ⟨isFile, others⟩ := List.forall_mem_cons.mp files
    obtain ⟨added, further⟩ := addFile_eq walk earlier isFile
    have before : ∀ p ∈ ps ++ placesUnder n [] f.tree.root, p.file < n + 1 := by
      intro p member
      rcases List.mem_append.mp member with early | own
      · exact Nat.lt_succ_of_lt (earlier p early)
      · obtain ⟨c, -, rfl⟩ := List.mem_map.mp own
        exact Nat.lt_succ_self n
    have rest := ih further before others
    rw [← added, List.append_assoc] at rest
    exact rest

/-- Filling the table of a rule set is walking through its places. -/
theorem ofRuleSet_eq {s : RuleSet} (files : ∀ f ∈ s.files, f.tree.root.IsFile) :
    ofRuleSet s = ofPlaces s.places ∧ Walk s.places :=
  addFiles_eq .start nofun files

end SymbolTable

end XuleLang
