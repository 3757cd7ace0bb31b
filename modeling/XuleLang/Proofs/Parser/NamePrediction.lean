import XuleLang.Proofs.Parser.KeywordPrediction
import XuleLang.Proofs.Parser.Lasting
import XuleLang.Proofs.Parser.Watching

/-!
Where a qualified name is predicted behind the local name of another one.

Behind a local name a value is complete. What may follow it is an operator or the end of the value,
but for the nodes in which one value may stand right behind another. So a probe right behind a local
name is told of qualified names only if it is told of such a node, too.

The name that stands there is complete as soon as its node has been made. That happens behind the
last token of the name, and before the probe there is told of anything but the name itself.
-/

namespace XuleLang

/-- The token stands behind a colon among the children of a node, the latest of which is the first
here. -/
def BehindColon (t : Token) (cs : List Tree) : Prop :=
  ∃ l older, .leaf l :: older <:+ cs ∧ l.token = t ∧
    ∃ c ∈ older, c.kind? = some (.punctuator .colon)

section Children

variable {t : Token} {x : Tree} {cs : List Tree}

theorem behindColon_cons : BehindColon t (x :: cs) ↔
    (∃ l, x = .leaf l ∧ l.token = t ∧ ∃ c ∈ cs, c.kind? = some (.punctuator .colon)) ∨
      BehindColon t cs := by
  constructor
  · rintro ⟨l, older, suffix, token, colon⟩
    rcases List.suffix_cons_iff.mp suffix with same | earlier
    · cases same
      exact .inl ⟨l, rfl, token, colon⟩
    · exact .inr ⟨l, older, earlier, token, colon⟩
  · rintro (⟨l, rfl, token, colon⟩ | ⟨l, older, suffix, token, colon⟩)
    · exact ⟨l, cs, List.suffix_refl _, token, colon⟩
    · exact ⟨l, older, suffix.trans (List.suffix_cons _ _), token, colon⟩

/-- No child is a colon. -/
def WithoutColon (cs : List Tree) : Prop := ∀ c ∈ cs, c.kind? ≠ some (.punctuator .colon)

theorem WithoutColon.not_behindColon (without : WithoutColon cs) : ¬BehindColon t cs := by
  rintro ⟨l, older, suffix, -, c, member, colon⟩
  exact without c (suffix.subset (.tail _ member)) colon

end Children

namespace ParserState

/-- A qualified name has been made in which the token stands behind a colon. -/
def Named (t : Token) (s : ParserState) : Prop :=
  ∃ u, s.Made u ∧ u.rule? = some .qualifiedName ∧ BehindColon t u.children.reverse

section Named

variable {s s' : ParserState} {t : Token} {r : Rule}

theorem Named.congr (named : s.Named t) (frames : s'.frames = s.frames)
    (finished : s'.finished = s.finished) : s'.Named t :=
  named.imp fun _ => And.imp_left fun made => made.congr frames finished

theorem Named.of_note {ks : List TokenKind} {rs : List Rule} (named : (s.note ks rs).Named t) :
    s.Named t :=
  named.congr (s.note_agrees ks rs).frames.symm (s.note_agrees ks rs).finished.symm

theorem Named.note (named : s.Named t) (ks : List TokenKind) (rs : List Rule) :
    (s.note ks rs).Named t :=
  named.congr (s.note_agrees ks rs).frames (s.note_agrees ks rs).finished

theorem Named.of_complain {c : Complaint} (named : (s.complain c).Named t) : s.Named t :=
  named.congr (s.complain_agrees c).frames.symm (s.complain_agrees c).finished.symm

theorem Named.of_start (named : (s.start r).Named t) : s.Named t :=
  named.imp fun _ => And.imp_left Made.of_start

theorem Named.of_wrap (named : (s.wrap r).Named t) : s.Named t :=
  named.imp fun _ => And.imp_left Made.of_wrap

theorem Named.of_bump (named : s.bump.Named t) : s.Named t := by
  obtain ⟨u, made, rule, behind⟩ := named
  rcases made.of_bump with before | leaf
  · exact ⟨u, before, rule, behind⟩
  · cases u with
    | leaf l => cases rule
    | node => cases leaf

/-- A name is complete as soon as its node is closed. -/
theorem Named.of_finish (named : s.finish.Named t) : s.Named t ∨ ∃ f outer,
    s.frames = f :: outer ∧ f.rule = .qualifiedName ∧ BehindColon t f.children := by
  obtain ⟨u, made, rule, behind⟩ := named
  rcases made.of_finish with before | ⟨f, outer, frames, rfl⟩
  · exact .inl ⟨u, before, rule, behind⟩
  · refine .inr ⟨f, outer, frames, Option.some.inj rule, ?_⟩
    simpa [Tree.ofChildren, Tree.children] using behind

theorem Named.of_finish_outside (named : s.finish.Named t) (outside : .qualifiedName ∉ s.rules) :
    s.Named t := by
  refine named.of_finish.resolve_right ?_
  rintro ⟨f, outer, frames, rule, -⟩
  exact outside (by simp [rules, frames, rule])

end Named

/-! ## Probes behind a token -/

section Heeding

variable {vs : List Token} {m : Nat} {t : Token} {s s' : ParserState} {r : Rule}

/-- A probe right behind the token number `m`, if it is told of qualified names when the token
completes one, is told of a node with juxtaposed values, too. -/
structure HeedsName (vs : List Token) (m : Nat) (t : Token) (s : ParserState) : Prop where
  probing : Probing vs (m + 1) s
  unnamed : s.consumed ≤ m → ¬s.Named t
  told : ∀ p, s.probe = some p → .qualifiedName ∈ p.rules →
    m < s.consumed ∧ (s.Named t → ∃ r ∈ p.rules, r.juxtaposes = true)

/-- Qualified names may be noted. -/
def MayName (m : Nat) (t : Token) (s : ParserState) : Prop :=
  s.consumed = m + 1 → s.Named t →
    (∃ p, s.probe = some p ∧ p.done = true) ∨ ∃ r ∈ s.rules, r.juxtaposes = true

namespace HeedsName

/-- What notes nothing and completes no name. -/
theorem keep (heeds : HeedsName vs m t s) (probing : Probing vs (m + 1) s')
    (consumed : s.consumed ≤ s'.consumed) (named : s'.Named t → s.Named t)
    (rules : ∀ p', s'.probe = some p' → ∃ p, s.probe = some p ∧ p.rules = p'.rules) :
    HeedsName vs m t s' := by
  refine ⟨probing, fun early name => heeds.unnamed (Nat.le_trans consumed early) (named name), ?_⟩
  intro p' probe' told
  obtain ⟨p, probe, same⟩ := rules p' probe'
  obtain ⟨late, juxtaposed⟩ := heeds.told p probe (same ▸ told)
  exact ⟨Nat.lt_of_lt_of_le late consumed, fun name => same ▸ juxtaposed (named name)⟩

theorem note (heeds : HeedsName vs m t s) (ks : List TokenKind) (rs : List Rule)
    (may : .qualifiedName ∈ s.rules ++ rs → MayName m t s) : HeedsName vs m t (s.note ks rs) := by
  refine ⟨heeds.probing.note ks rs, ?_, ?_⟩
  · rw [note_consumed]
    exact fun early name => heeds.unnamed early name.of_note
  · rw [note_consumed]
    obtain ⟨p, here, caret⟩ := heeds.probing.caret
    rw [note_of_probe here]
    split
    case isTrue => exact heeds.told
    case isFalse waiting =>
      simp only [Bool.or_eq_true, bne_iff_ne, not_or, ne_eq, Bool.not_eq_true, not_not] at waiting
      obtain ⟨undone, reached⟩ := waiting
      rintro _ ⟨⟩ told
      have consumed : s.consumed = m + 1 := reached.symm.trans caret
      refine ⟨by omega, fun name => ?_⟩
      have name : s.Named t := name
      rcases mem_rules_note.mp told with new | old
      · rcases may new consumed name with ⟨p', here', done⟩ | ⟨r, opened, juxtaposes⟩
        · cases here.symm.trans here'
          simp [done] at undone
        · exact ⟨r, mem_rules_note.mpr (.inl (List.mem_append_left _ opened)), juxtaposes⟩
      · obtain ⟨r, member, juxtaposes⟩ := (heeds.told p here old).2 name
        exact ⟨r, mem_rules_note.mpr (.inr member), juxtaposes⟩

end HeedsName

theorem exists_rules_of_settle {p' : Probe} (probe : s.settle.probe = some p') :
    ∃ p, s.probe = some p ∧ p.rules = p'.rules := by
  cases here : s.probe with
  | none => simp [settle, here] at probe
  | some p =>
    rw [settle_of_probe here] at probe
    refine ⟨p, rfl, ?_⟩
    split at probe
    · cases probe
      rfl
    · cases here.symm.trans probe
      rfl

theorem consumed_le_bump (s : ParserState) : s.consumed ≤ s.bump.consumed := by
  cases here : s.rest with
  | nil => simp only [bump, here, Nat.le_refl]
  | cons x ts =>
    obtain ⟨u, same, -, read⟩ := bump_eq_settle here
    rw [read]
    split
    · rw [settle_consumed, same.consumed]
    · exact Nat.le_succ _

theorem exists_rules_of_bump {k : Nat} {p' : Probe} (probing : Probing vs k s)
    (probe : s.bump.probe = some p') : ∃ p, s.probe = some p ∧ p.rules = p'.rules := by
  obtain ⟨x, ts, here⟩ := probing.exists_cons
  obtain ⟨u, same, -, read⟩ := bump_eq_settle here
  have settled : u.settle.probe = some p' := by
    rw [read] at probe
    split at probe <;> exact probe
  obtain ⟨p, there, rules⟩ := exists_rules_of_settle settled
  exact ⟨p, same.probe ▸ there, rules⟩

namespace HeedsName

theorem bump (heeds : HeedsName vs m t s) : HeedsName vs m t s.bump :=
  heeds.keep (kept_probing _ _ _ .bump s heeds.probing) s.consumed_le_bump Named.of_bump
    fun _ => exists_rules_of_bump heeds.probing

theorem complain (heeds : HeedsName vs m t s) (c : Complaint) :
    HeedsName vs m t (s.complain c) := by
  refine heeds.keep (kept_probing _ _ _ (.complain c) s heeds.probing)
    (Nat.le_of_eq (s.complain_consumed c).symm) Named.of_complain ?_
  obtain ⟨errors, complained⟩ := s.complain_eq_settle c
  intro p' probe
  rw [complained] at probe
  exact exists_rules_of_settle probe

theorem overrun (heeds : HeedsName vs m t s) : HeedsName vs m t s.overrun :=
  ⟨kept_probing _ _ _ .overrun s heeds.probing, heeds.unnamed, heeds.told⟩

theorem start (heeds : HeedsName vs m t s)
    (may : .qualifiedName ∈ r :: s.rules → MayName m t s) : HeedsName vs m t (s.start r) := by
  obtain ⟨u, started, same, rules⟩ := s.start_eq_note r
  have named : u.Named t → s.Named t := fun name =>
    Named.of_start (started ▸ name.note [] [])
  rw [started]
  refine HeedsName.note (heeds.keep (heeds.probing.reseen same) (Nat.le_of_eq same.consumed.symm)
    named fun p probe => ⟨p, same.probe ▸ probe, rfl⟩) [] [] ?_
  rw [rules, List.append_nil]
  intro opened consumed name
  rcases may opened (same.consumed ▸ consumed) (named name) with done | ⟨q, around, juxtaposes⟩
  · exact .inl (same.probe ▸ done)
  · exact .inr ⟨q, rules ▸ .tail _ around, juxtaposes⟩

theorem wrap (heeds : HeedsName vs m t s) (outside : .qualifiedName ∉ r :: s.rules) :
    HeedsName vs m t (s.wrap r) := by
  obtain ⟨u, wrapped, same, rules⟩ := s.wrap_eq_note r
  have named : u.Named t → s.Named t := fun name =>
    Named.of_wrap (wrapped ▸ name.note [] [])
  rw [wrapped]
  refine HeedsName.note (heeds.keep (heeds.probing.reseen same) (Nat.le_of_eq same.consumed.symm)
    named fun p probe => ⟨p, same.probe ▸ probe, rfl⟩) [] [] fun opened => ?_
  rw [rules, List.append_nil] at opened
  exact absurd opened outside

/-- A name may become complete behind the token, where nothing of it was told. -/
theorem finish (heeds : HeedsName vs m t s)
    (new : s.finish.Named t → s.Named t ∨
      m < s.consumed ∧ ∀ p, s.probe = some p → .qualifiedName ∉ p.rules) :
    HeedsName vs m t s.finish := by
  have same := s.finish_reseen.1
  refine ⟨heeds.probing.reseen same, fun early name => ?_, fun p probe told => ?_⟩
  · rw [same.consumed] at early
    rcases new name with before | ⟨late, -⟩
    · exact heeds.unnamed early before
    · omega
  · rw [same.probe] at probe
    obtain ⟨late, juxtaposed⟩ := heeds.told p probe told
    refine ⟨same.consumed.symm ▸ late, fun name => ?_⟩
    rcases new name with before | ⟨-, untold⟩
    · exact juxtaposed before
    · exact absurd told (untold p probe)

end HeedsName

/-! ### Where names may be noted -/

theorem probe_note_of_done {p : Probe} (here : s.probe = some p) (done : p.done = true)
    (ks : List TokenKind) (rs : List Rule) : (s.note ks rs).probe = some p := by
  rw [note_of_probe here, done, Bool.true_or, if_pos rfl, here]

theorem exists_done_of_settle {k : Nat} (caret : ∃ p, s.probe = some p ∧ p.caret = k)
    (reached : k ≤ s.consumed) : ∃ p, s.settle.probe = some p ∧ p.done = true := by
  obtain ⟨p, here, rfl⟩ := caret
  rw [settle_of_probe here, if_pos reached]
  exact ⟨_, rfl, rfl⟩

namespace MayName

theorem note (may : MayName m t s) (ks : List TokenKind) (rs : List Rule) :
    MayName m t (s.note ks rs) := by
  intro consumed name
  rw [note_consumed] at consumed
  rcases may consumed name.of_note with ⟨p, here, done⟩ | juxtaposes
  · exact .inl ⟨p, probe_note_of_done here done ks rs, done⟩
  · exact .inr (by rwa [note_rules])

/-- Where a node is opened, the others stay open. -/
theorem opened {u : ParserState} (may : MayName m t s) (same : Reseen s u)
    (rules : u.rules = r :: s.rules) (named : u.Named t → s.Named t) : MayName m t u := by
  intro consumed name
  rcases may (same.consumed ▸ consumed) (named name) with done | ⟨q, around, juxtaposes⟩
  · exact .inl (same.probe ▸ done)
  · exact .inr ⟨q, rules ▸ .tail _ around, juxtaposes⟩

theorem start (may : MayName m t s) (r : Rule) : MayName m t (s.start r) := by
  obtain ⟨u, started, same, rules⟩ := s.start_eq_note r
  rw [started]
  exact (may.opened same rules fun name => .of_start (started ▸ name.note [] [])).note [] []

theorem wrap (may : MayName m t s) (r : Rule) : MayName m t (s.wrap r) := by
  obtain ⟨u, wrapped, same, rules⟩ := s.wrap_eq_note r
  rw [wrapped]
  exact (may.opened same rules fun name => .of_wrap (wrapped ▸ name.note [] [])).note [] []

/-- Right behind a token that was read no name is complete that the token belongs to. -/
theorem bump (heeds : HeedsName vs m t s) : MayName m t s.bump := by
  intro consumed name
  obtain ⟨x, ts, here⟩ := heeds.probing.exists_cons
  obtain ⟨u, same, -, read⟩ := bump_eq_settle here
  by_cases ends : x.kind = .endOfInput
  case pos =>
    rw [read, if_pos ends] at consumed ⊢
    rw [settle_consumed] at consumed
    have caret := heeds.probing.caret
    rw [← same.probe] at caret
    exact .inl (exists_done_of_settle caret (Nat.le_of_eq consumed.symm))
  case neg =>
    rw [read, if_neg ends] at consumed
    exact absurd name.of_bump (heeds.unnamed (Nat.le_of_eq (Nat.succ.inj consumed)))

theorem complain (heeds : HeedsName vs m t s) (c : Complaint) : MayName m t (s.complain c) := by
  intro consumed _
  rw [complain_consumed] at consumed
  obtain ⟨errors, complained⟩ := s.complain_eq_settle c
  rw [complained]
  exact .inl (exists_done_of_settle heeds.probing.caret (Nat.le_of_eq consumed.symm))

theorem finish (may : MayName m t s) (open_ : s.rules.head? = some r)
    (apart : r.juxtaposes = false) (outside : .qualifiedName ∉ s.rules) :
    MayName m t s.finish := by
  obtain ⟨same, rules⟩ := s.finish_reseen
  intro consumed name
  rcases may (same.consumed ▸ consumed) (name.of_finish_outside outside) with
    done | ⟨q, around, juxtaposes⟩
  · exact .inl (same.probe ▸ done)
  · refine .inr ⟨q, ?_, juxtaposes⟩
    obtain ⟨outer, opened⟩ := List.head?_eq_some_iff.mp open_
    rw [opened] at around
    rw [rules, opened]
    rcases List.mem_cons.mp around with rfl | further
    · simp [apart] at juxtaposes
    · exact further

end MayName

end Heeding

end ParserState

namespace Parser

open ParserState

variable {vs : List Token} {m : Nat} {t : Token} {s : ParserState} {f : Footing} {r : Rule}
  {C : List Tree → Prop}

/-! ## Outside of names -/

/-- The probe heeds the token, in no node for a qualified name. -/
structure NamesAt (vs : List Token) (m : Nat) (t : Token) (f : Footing) (s : ParserState) :
    Prop where
  heeds : HeedsName vs m t s
  outside : .qualifiedName ∉ s.rules
  may : f = .firm → MayName m t s

namespace NamesAt

theorem unsure (here : NamesAt vs m t f s) : NamesAt vs m t .unsure s :=
  { here with may := nofun }

theorem note (here : NamesAt vs m t f s) (ks : List TokenKind) {rs : List Rule}
    (may : .qualifiedName ∈ rs → f = .firm) : NamesAt vs m t f (s.note ks rs) where
  heeds := here.heeds.note ks rs fun told =>
    here.may (may ((List.mem_append.mp told).resolve_left here.outside))
  outside := by simpa using here.outside
  may firm := (here.may firm).note ks rs

theorem bump (here : NamesAt vs m t .unsure s) : NamesAt vs m t .firm s.bump where
  heeds := here.heeds.bump
  outside := by simpa using here.outside
  may _ := .bump here.heeds

theorem complain (here : NamesAt vs m t .unsure s) (c : Complaint) :
    NamesAt vs m t .firm (s.complain c) where
  heeds := here.heeds.complain c
  outside := by simpa using here.outside
  may _ := .complain here.heeds c

theorem overrun (here : NamesAt vs m t f s) : NamesAt vs m t f s.overrun :=
  ⟨here.heeds.overrun, here.outside, here.may⟩

theorem start (here : NamesAt vs m t f s) (other : r ≠ .qualifiedName) :
    NamesAt vs m t f (s.start r) := by
  have outside : .qualifiedName ∉ r :: s.rules := by simp [here.outside, other.symm]
  exact ⟨here.heeds.start fun told => absurd told outside, by rwa [start_rules],
    fun firm => (here.may firm).start r⟩

theorem wrap (here : NamesAt vs m t f s) (other : r ≠ .qualifiedName) :
    NamesAt vs m t f (s.wrap r) := by
  have outside : .qualifiedName ∉ r :: s.rules := by simp [here.outside, other.symm]
  exact ⟨here.heeds.wrap outside, by rwa [wrap_rules], fun firm => (here.may firm).wrap r⟩

theorem close (here : NamesAt vs m t .unsure s) : NamesAt vs m t .unsure s.finish where
  heeds := here.heeds.finish fun name => .inl (name.of_finish_outside here.outside)
  outside := by
    rw [s.finish_reseen.2]
    exact fun member => here.outside (List.mem_of_mem_tail member)
  may := nofun

theorem finish (here : NamesAt vs m t .firm s) (open_ : s.rules.head? = some r)
    (apart : r.juxtaposes = false) : NamesAt vs m t .firm s.finish :=
  { here.unsure.close with may := fun _ => (here.may rfl).finish open_ apart here.outside }

theorem juxtaposed (here : NamesAt vs m t .unsure s) (inside : ∃ r ∈ s.rules, r.juxtaposes = true) :
    NamesAt vs m t .firm s :=
  { here with may := fun _ _ _ => .inr inside }

end NamesAt

/-! ## In a name -/

/-- In a node for a qualified name, whose children so far have a property. Outside of it names may
be noted, and in it they are. -/
structure Naming (vs : List Token) (m : Nat) (t : Token) (C : List Tree → Prop) (s : ParserState) :
    Prop where
  heeds : HeedsName vs m t s
  may : MayName m t s
  opened : ∃ g outer, s.frames = g :: outer ∧ .qualifiedName ∉ outer.map (·.rule) ∧ C g.children

namespace Naming

theorem note (here : Naming vs m t C s) (ks : List TokenKind) : Naming vs m t C (s.note ks []) where
  heeds := here.heeds.note ks [] fun _ => here.may
  may := here.may.note ks []
  opened := (s.note_agrees ks []).frames ▸ here.opened

theorem complain (here : Naming vs m t C s) (c : Complaint) : Naming vs m t C (s.complain c) where
  heeds := here.heeds.complain c
  may := .complain here.heeds c
  opened := (s.complain_agrees c).frames ▸ here.opened

theorem weaken {C' : List Tree → Prop} (here : Naming vs m t C s) (weaker : ∀ cs, C cs → C' cs) :
    Naming vs m t C' s := by
  obtain ⟨g, outer, frames, outside, children⟩ := here.opened
  exact ⟨here.heeds, here.may, g, outer, frames, outside, weaker _ children⟩

/-- What is read becomes a child. -/
theorem opened_bump (here : Naming vs m t C s) : ∃ g outer x, s.bump.frames = g :: outer ∧
    .qualifiedName ∉ outer.map (·.rule) ∧ vs[s.consumed]? = some x ∧ s.kind = x.kind ∧
    ∃ n cs, g.children = .leaf ⟨n, x⟩ :: cs ∧ C cs := by
  obtain ⟨g, outer, frames, outside, children⟩ := here.opened
  obtain ⟨x, ts, ahead⟩ := here.heeds.probing.exists_cons
  have read := (bump_of_cons ahead).frames
  rw [attach_of_cons frames] at read
  have first := congrArg List.head? here.heeds.probing.rest
  rw [ahead, List.head?_cons, List.head?_drop] at first
  have kind : s.kind = x.kind := by simp [ParserState.kind, ParserState.kindAt, ahead]
  exact ⟨_, outer, x, read, outside, first.symm, kind, _, _, rfl, children⟩

/-- A name is no colon. -/
theorem bump_first (here : Naming vs m t (· = []) s)
    (name : (s.kind == .identifier || s.kind.isKeyword) = true) :
    Naming vs m t WithoutColon s.bump := by
  obtain ⟨g, outer, x, frames, outside, -, kind, n, cs, children, rfl⟩ := here.opened_bump
  refine ⟨here.heeds.bump, .bump here.heeds, g, outer, frames, outside, ?_⟩
  rw [children]
  refine List.forall_mem_singleton.mpr fun colon => ?_
  have colon : x.kind = .punctuator .colon := Option.some.inj colon
  rw [kind, colon] at name
  cases name

/-- The first colon has none before it. -/
theorem bump_colon (here : Naming vs m t WithoutColon s) :
    Naming vs m t (¬BehindColon t ·) s.bump := by
  obtain ⟨g, outer, x, frames, outside, -, -, n, cs, children, before⟩ := here.opened_bump
  refine ⟨here.heeds.bump, .bump here.heeds, g, outer, frames, outside, ?_⟩
  rw [children, behindColon_cons]
  rintro (⟨l, -, -, c, member, colon⟩ | earlier)
  · exact before c member colon
  · exact before.not_behindColon earlier

end Naming

/-- The token has the number `m` among the visible ones, and is not the end. -/
structure IsNumbered (vs : List Token) (m : Nat) (t : Token) : Prop where
  only : ∀ n, vs[n]? = some t → n = m
  inside : t.kind ≠ .endOfInput

/-- At the end of a qualified name. If the token completes it, the probe has not been told of
qualified names. -/
structure EndsName (vs : List Token) (m : Nat) (t : Token) (s : ParserState) : Prop where
  heeds : HeedsName vs m t s
  opened : ∃ g outer, s.frames = g :: outer ∧ .qualifiedName ∉ outer.map (·.rule) ∧
    (BehindColon t g.children →
      m < s.consumed ∧ ∀ p, s.probe = some p → .qualifiedName ∉ p.rules)

namespace Naming

theorem ends (here : Naming vs m t (¬BehindColon t ·) s) : EndsName vs m t s := by
  obtain ⟨g, outer, frames, outside, before⟩ := here.opened
  exact ⟨here.heeds, g, outer, frames, outside, fun behind => absurd behind before⟩

/-- If the token is read behind the colon, the probe is still ahead. -/
theorem bump_last (place : IsNumbered vs m t) (here : Naming vs m t (¬BehindColon t ·) s) :
    EndsName vs m t s.bump := by
  obtain ⟨g, outer, x, frames, outside, number, kind, n, cs, children, before⟩ := here.opened_bump
  refine ⟨here.heeds.bump, g, outer, frames, outside, fun behind => ?_⟩
  rw [children, behindColon_cons] at behind
  rcases behind with ⟨l, same, rfl, -⟩ | earlier
  case inr => exact absurd earlier before
  cases same
  have consumed : s.consumed = m := place.only _ number
  constructor
  · obtain ⟨y, ts, ahead⟩ := here.heeds.probing.exists_cons
    obtain ⟨u, -, -, read⟩ := bump_eq_settle ahead
    have inside : y.kind ≠ .endOfInput := by
      have ahead : s.kind = y.kind := by simp [ParserState.kind, ParserState.kindAt, ahead]
      rw [← ahead, kind]
      exact place.inside
    rw [read, if_neg inside]
    exact Nat.lt_succ_of_le (Nat.le_of_eq consumed.symm)
  · intro p' probe told
    obtain ⟨p, there, rules⟩ := exists_rules_of_bump here.heeds.probing probe
    have late := (here.heeds.told p there (rules ▸ told)).1
    omega

end Naming

theorem runs_qualifiedName_named (place : IsNumbered vs m t) :
    Runs (NamesAt vs m t .firm) qualifiedName fun _ => NamesAt vs m t .unsure := by
  have first : Runs (Naming vs m t (· = [])) (requireName .qualifiedName) fun _ =>
      Naming vs m t WithoutColon :=
    runs_requireName _ (fun s here => here.note _) (fun s here => here.bump_first)
      fun s c here => (here.complain c).weaken fun _ none => none ▸ nofun
  have colon : Runs (Naming vs m t WithoutColon) (eat (.punctuator .colon)) fun _ =>
      Naming vs m t (¬BehindColon t ·) :=
    (runs_eat_punctuator _ (fun s here => here.note _) fun s here => here.bump_colon).weaken
      (fun _ => id) fun yes _ here => by
        cases yes with
        | true => exact here
        | false => exact here.weaken fun _ => WithoutColon.not_behindColon
  have last : Runs (Naming vs m t (¬BehindColon t ·)) (requireName .localName) fun _ =>
      EndsName vs m t :=
    runs_requireName _ (fun s here => here.note _) (fun s here _ => here.bump_last place)
      fun s c here => (here.complain c).ends
  refine .withinOf (fun s here => ?_)
    (first.andThen fun _ => colon.andThen fun _ => .either last (.answer fun _ => Naming.ends))
    fun s _ here => ?_
  · exact ⟨here.heeds.start fun _ => here.may rfl, (here.may rfl).start _, _, _,
      (s.start_agrees _).frames, here.outside, rfl⟩
  · obtain ⟨g, outer, frames, outside, late⟩ := here.opened
    refine ⟨here.heeds.finish fun name => name.of_finish.imp_right ?_, ?_, nofun⟩
    · rintro ⟨g', outer', frames', -, behind⟩
      rw [frames] at frames'
      cases frames'
      exact late behind
    · rw [s.finish_reseen.2, rules, frames]
      exact outside

theorem runs_propertyRef_named :
    Runs (NamesAt vs m t .firm) propertyRef fun _ => NamesAt vs m t .firm := by
  have name : Runs (NamesAt vs m t .firm) (requireName .propertyName) fun _ =>
      NamesAt vs m t .firm :=
    runs_requireName _ (fun s here => here.note _ nofun) (fun s here _ => here.unsure.bump)
      fun s c here => here.unsure.complain c
  exact .withinOf (fun s here => here.start nofun) name fun s open_ here => here.finish open_ rfl

/-- The watch over names right behind a local name. -/
def nameWatch (place : IsNumbered vs m t) : Watch where
  At := NamesAt vs m t
  Pointed := NamesAt vs m t .firm
  unsure here := here.unsure
  note ks _ others here := here.note ks fun member => nomatch others _ member
  operand here := here.note [] fun _ => rfl
  bump here := here.bump
  point here _ := here.bump
  complain c here := here.complain c
  overrun here := here.overrun
  start other here := here.start fun same => nomatch same ▸ other
  wrap other here := here.wrap fun same => nomatch same ▸ other
  close here := here.close
  finish open_ apart here := here.finish open_ apart
  juxtaposed here inside := here.juxtaposed inside
  qualifiedName := runs_qualifiedName_named place
  propertyRef := runs_propertyRef_named

end Parser

/-- **Behind a local name a qualified name is predicted only among juxtaposed values.** If the last
token before the caret stands behind the colon of a qualified name, and a qualified name is a
candidate, so is the rule of a node that holds one value right behind another. -/
theorem exists_juxtaposing_candidate {tokens : List Token} {index m : Nat} {t : Token} {u : Tree}
    (ends : EndsOnce (visibleTokens tokens)) (place : Parser.IsNumbered (visibleTokens tokens) m t)
    (caret : caretOf tokens index = m + 1) (member : u ∈ (parse tokens).tree.root.subtrees)
    (rule : u.rule? = some .qualifiedName) (behind : BehindColon t u.children.reverse)
    (candidate : .qualifiedName ∈ (candidatesAt tokens index).rules) :
    ∃ r ∈ (candidatesAt tokens index).rules, r.juxtaposes = true := by
  have begin : Parser.NamesAt (visibleTokens tokens) m t .unsure
      (.ofTokens (visibleTokens tokens) (some ⟨caretOf tokens index, false, [], []⟩)) := by
    have nothing : ¬ParserState.Named t (.ofTokens (visibleTokens tokens)
        (some ⟨caretOf tokens index, false, [], []⟩)) := by
      rintro ⟨u, ⟨v, here | ⟨f, opened, -⟩, -⟩, -⟩
      · cases here
      · cases opened
    exact ⟨⟨⟨ends, rfl, _, rfl, caret⟩, fun _ => nothing, by rintro _ ⟨⟩ ⟨⟩⟩, nofun, nofun⟩
  have run := (Parser.nameWatch place).runFile begin
  obtain ⟨p, probe, told⟩ := mem_rules_candidatesAt.mp candidate
  have made := made_of_mem_subtrees ends (some ⟨caretOf tokens index, false, [], []⟩) member
    (rule ▸ nofun)
  obtain ⟨r, noted, juxtaposes⟩ := (run.heeds.told p probe told).2 ⟨u, made, rule, behind⟩
  exact ⟨r, mem_rules_candidatesAt.mpr ⟨p, probe, noted⟩, juxtaposes⟩

end XuleLang
