import XuleLang.Proofs.Parser.File
import XuleLang.Proofs.Parser.Lasting
import XuleLang.Proofs.Parser.Watching

/-!
Property names are predicted only behind a point.

A node for a property name is opened in two places, behind an operand and behind an aspect, and in
both a point has just been read. It is closed as soon as a name has been read in it, or complained
of. So a probe that is told of the rule has its caret right behind the point.
-/

namespace XuleLang

/-- The token before so many others is a point. -/
def PointBefore (ts : List Token) (n : Nat) : Prop :=
  ∃ m t, n = m + 1 ∧ ts[m]? = some t ∧ t.kind = .punctuator .dot

namespace ParserState

variable {vs : List Token} {k : Nat} {s : ParserState} {r : Rule}

/-- A probe is told of property names only behind a point. -/
structure HeedsPoints (vs : List Token) (k : Nat) (s : ParserState) : Prop where
  probing : Probing vs k s
  told : ∀ p, s.probe = some p → .propertyRef ∈ p.rules → PointBefore vs k

namespace HeedsPoints

theorem reseen {s' : ParserState} (heeds : HeedsPoints vs k s) (same : Reseen s s') :
    HeedsPoints vs k s' :=
  ⟨heeds.probing.reseen same, same.probe ▸ heeds.told⟩

/-- The rule may be noted where a point was read last. -/
theorem note (heeds : HeedsPoints vs k s) (ks : List TokenKind) (rs : List Rule)
    (behind : .propertyRef ∈ s.rules ++ rs → PointBefore vs s.consumed) :
    HeedsPoints vs k (s.note ks rs) := by
  refine ⟨heeds.probing.note ks rs, ?_⟩
  obtain ⟨p, here, caret⟩ := heeds.probing.caret
  rw [note_of_probe here]
  split
  case isTrue => exact heeds.told
  case isFalse waiting =>
    rintro _ ⟨⟩ told
    rcases mem_rules_note.mp told with new | old
    · have reached : p.caret = s.consumed := by simp_all
      rw [← caret, reached]
      exact behind new
    · exact heeds.told p here old

theorem settle (heeds : HeedsPoints vs k s) : HeedsPoints vs k s.settle := by
  refine ⟨heeds.probing.settle, ?_⟩
  obtain ⟨p, here, -⟩ := heeds.probing.caret
  rw [settle_of_probe here]
  split
  · rintro _ ⟨⟩ told
    exact heeds.told p here told
  · exact heeds.told

theorem complain (heeds : HeedsPoints vs k s) (c : Complaint) :
    HeedsPoints vs k (s.complain c) := by
  obtain ⟨errors, complained⟩ := s.complain_eq_settle c
  refine ⟨kept_probing vs k _ (.complain c) s heeds.probing, ?_⟩
  rw [complained]
  exact heeds.settle.told

theorem bump (heeds : HeedsPoints vs k s) : HeedsPoints vs k s.bump := by
  refine ⟨kept_probing vs k _ .bump s heeds.probing, ?_⟩
  obtain ⟨t, ts, here⟩ := heeds.probing.exists_cons
  obtain ⟨u, same, -, read⟩ := bump_eq_settle here
  have settled := (heeds.reseen same).settle.told
  rw [read]
  split <;> exact settled

theorem start (heeds : HeedsPoints vs k s)
    (behind : .propertyRef ∈ r :: s.rules → PointBefore vs s.consumed) :
    HeedsPoints vs k (s.start r) := by
  obtain ⟨u, started, same, rules⟩ := s.start_eq_note r
  rw [started]
  refine (heeds.reseen same).note [] [] ?_
  rwa [rules, List.append_nil, same.consumed]

theorem wrap (heeds : HeedsPoints vs k s)
    (behind : .propertyRef ∈ r :: s.rules → PointBefore vs s.consumed) :
    HeedsPoints vs k (s.wrap r) := by
  obtain ⟨u, wrapped, same, rules⟩ := s.wrap_eq_note r
  rw [wrapped]
  refine (heeds.reseen same).note [] [] ?_
  rwa [rules, List.append_nil, same.consumed]

/-- Behind a point that was read a point is the last token. -/
theorem pointBefore_bump (heeds : HeedsPoints vs k s) (ahead : s.kind = .punctuator .dot) :
    PointBefore vs s.bump.consumed := by
  obtain ⟨t, ts, here⟩ := heeds.probing.exists_cons
  have point : t.kind = .punctuator .dot := by simpa [kind, kindAt, here] using ahead
  obtain ⟨u, -, -, read⟩ := bump_eq_settle here
  refine ⟨s.consumed, t, ?_, ?_, point⟩
  · rw [read, if_neg (by simp [point])]
  · have first := congrArg List.head? heeds.probing.rest
    rwa [here, List.head?_cons, List.head?_drop, eq_comm] at first

end HeedsPoints

end ParserState

namespace Parser

open ParserState

variable {vs : List Token} {k : Nat}

/-- What a parser leaves open, it also leaves closed. -/
theorem Runs.outside {P : ParserState → Prop} {Q : α → ParserState → Prop} {p : Parser α} {r : Rule}
    (runs : Runs P p Q) : Runs (fun s => P s ∧ r ∉ s.rules) p fun a s => Q a s ∧ r ∉ s.rules := by
  intro s ⟨here, closed⟩
  obtain ⟨behind, same⟩ := runs s here
  exact ⟨⟨behind, same ▸ closed⟩, same⟩

/-- In a node for a property name nothing is noted once the name has been read. -/
theorem runs_propertyRef : Runs (fun s => HeedsPoints vs k s ∧ PointBefore vs s.consumed)
    propertyRef fun _ => HeedsPoints vs k := by
  have name : Runs (fun s => HeedsPoints vs k s ∧ PointBefore vs s.consumed)
      (requireName .propertyName) fun _ => HeedsPoints vs k :=
    runs_requireName _ (fun s here => ⟨here.1.note _ _ fun _ => here.2, by simpa using here.2⟩)
      (fun s here _ => here.1.bump) fun s c here => here.1.complain c
  exact .withinOf (fun s here => ⟨here.1.start fun _ => here.2, by simpa using here.2⟩) name
    fun s _ here => here.reseen s.finish_reseen.1

/-- A probe that heeds points, in no node for a property name. -/
def Pointless (vs : List Token) (k : Nat) (s : ParserState) : Prop :=
  HeedsPoints vs k s ∧ .propertyRef ∉ s.rules

namespace Pointless

variable {s : ParserState} {r : Rule}

theorem note (here : Pointless vs k s) (ks : List TokenKind) {rs : List Rule}
    (others : .propertyRef ∉ rs) : Pointless vs k (s.note ks rs) := by
  refine ⟨here.1.note ks rs fun member => ?_, by simpa using here.2⟩
  exact absurd member (by simp [here.2, others])

theorem start (here : Pointless vs k s) (other : r ≠ .propertyRef) :
    Pointless vs k (s.start r) := by
  have outside : .propertyRef ∉ r :: s.rules := by simp [here.2, other.symm]
  exact ⟨here.1.start fun member => absurd member outside, by rwa [s.start_rules]⟩

theorem wrap (here : Pointless vs k s) (other : r ≠ .propertyRef) : Pointless vs k (s.wrap r) := by
  have outside : .propertyRef ∉ r :: s.rules := by simp [here.2, other.symm]
  exact ⟨here.1.wrap fun member => absurd member outside, by rwa [s.wrap_rules]⟩

theorem finish (here : Pointless vs k s) : Pointless vs k s.finish := by
  refine ⟨here.1.reseen s.finish_reseen.1, ?_⟩
  rw [s.finish_reseen.2]
  exact fun member => here.2 (List.mem_of_mem_tail member)

theorem bump (here : Pointless vs k s) : Pointless vs k s.bump :=
  ⟨here.1.bump, by simpa using here.2⟩

theorem complain (here : Pointless vs k s) (c : Complaint) : Pointless vs k (s.complain c) :=
  ⟨here.1.complain c, by simpa using here.2⟩

end Pointless

theorem runs_qualifiedName : Runs (Pointless vs k) qualifiedName fun _ => Pointless vs k := by
  have name (x : Wanted) : Runs (Pointless vs k) (requireName x) fun _ => Pointless vs k :=
    runs_requireName x (fun s here => here.note _ nofun) (fun s here _ => here.bump)
      fun s c here => here.complain c
  have colon : Runs (Pointless vs k) (eat (.punctuator .colon)) fun _ => Pointless vs k :=
    (runs_eat_punctuator _ (fun s here => here.note _ nofun) fun s here => here.bump).weaken
      (fun _ => id) fun yes _ here => by cases yes <;> exact here
  exact .withinOf (fun s here => here.start nofun)
    ((name _).andThen fun _ => colon.andThen fun _ => .either (name _) (.answer fun _ => id))
    fun s _ here => here.finish

/-- The watch over property names, to which all ground is firm. -/
def pointWatch (vs : List Token) (k : Nat) : Watch where
  At _ := Pointless vs k
  Pointed s := (HeedsPoints vs k s ∧ PointBefore vs s.consumed) ∧ .propertyRef ∉ s.rules
  unsure := id
  note ks rs others here := here.note ks fun member => nomatch others _ member
  operand here := here.note [] (by decide)
  bump here := here.bump
  point here ahead := ⟨⟨here.1.bump, here.1.pointBefore_bump ahead⟩, by simpa using here.2⟩
  complain c here := here.complain c
  overrun here := ⟨⟨kept_probing vs k _ .overrun _ here.1.probing, here.1.told⟩, here.2⟩
  start other here := here.start fun same => nomatch same ▸ other
  wrap other here := here.wrap fun same => nomatch same ▸ other
  close here := here.finish
  finish _ _ here := here.finish
  juxtaposed here _ := here
  qualifiedName := runs_qualifiedName
  propertyRef := runs_propertyRef.outside

end Parser

/-- A property name is a candidate only where the token before the one asked for is a point. -/
theorem point_before_propertyRef {tokens : List Token} {index : Nat}
    (ends : EndsOnce (visibleTokens tokens))
    (candidate : .propertyRef ∈ (candidatesAt tokens index).rules) :
    PointBefore (visibleTokens tokens) (caretOf tokens index) := by
  have begin : Parser.Pointless (visibleTokens tokens) (caretOf tokens index)
      (.ofTokens (visibleTokens tokens) (some ⟨caretOf tokens index, false, [], []⟩)) :=
    ⟨⟨⟨ends, rfl, _, rfl, rfl⟩, by rintro _ ⟨⟩ ⟨⟩⟩, nofun⟩
  have run : Parser.Pointless (visibleTokens tokens) (caretOf tokens index)
      (runFile tokens (some ⟨caretOf tokens index, false, [], []⟩)) :=
    (Parser.pointWatch _ _).runFile begin
  obtain ⟨p, probe, told⟩ := mem_rules_candidatesAt.mp candidate
  exact run.1.told p probe told

end XuleLang
