import XuleLang.CommandLine
import XuleLang.Proofs.Source.SafePath

/-!
What a run of the command line asks of files.

Files may change while a program runs, so what they answer may depend on all that was asked of them
before (`ChangingFiles`). Access to them keeps a record, and `Asks` says of a program that it adds
nothing to the record but what is allowed. Programs that ask one after the other ask for what each
of them asks for, so every function is judged by those that it calls. What a run may ask for is
`Request.Allows`: nothing before the path of the request was found to be safe, and nothing but that
path before those of all imports were.
-/

namespace XuleLang

/-- What is asked of files. -/
inductive FileQuery where
  | read (p : Path)
  | canonical (p : Path)
deriving DecidableEq, Repr

/-- The path that is asked about. -/
def FileQuery.path : FileQuery → Path
  | read p => p
  | canonical p => p

/-- Files that answer as they like, by what was asked before. -/
structure ChangingFiles where
  read : List FileQuery → Path → Except ReadError (List Char)
  canonical? : List FileQuery → Path → Option Path

/-- Access to the files that records what is asked. -/
def ChangingFiles.access (files : ChangingFiles) : FileAccess (StateM (List FileQuery)) where
  read p := fun asked => (files.read asked p, asked ++ [.read p])
  canonical? p := fun asked => (files.canonical? asked p, asked ++ [.canonical p])

/-- Whatever was asked before, a program asks only for what is allowed. -/
def Asks {α : Type} (allowed : FileQuery → Prop) (program : StateM (List FileQuery) α) : Prop :=
  ∀ asked, ∃ more, (program.run asked).2 = asked ++ more ∧ ∀ q ∈ more, allowed q

namespace Asks

variable {α β : Type} {allowed : FileQuery → Prop} {files : ChangingFiles} {p : Path}

theorem pure (a : α) : Asks allowed (Pure.pure a) :=
  fun asked => ⟨[], (List.append_nil asked).symm, nofun⟩

theorem bind {program : StateM (List FileQuery) α} {next : α → StateM (List FileQuery) β}
    (first : Asks allowed program) (others : ∀ a, Asks allowed (next a)) :
    Asks allowed (program >>= next) := by
  intro asked
  obtain ⟨before, here, allowedBefore⟩ := first asked
  obtain ⟨behind, there, allowedBehind⟩ :=
    others (program.run asked).1 (program.run asked).2
  refine ⟨before ++ behind, ?_, fun q member => ?_⟩
  · rw [← List.append_assoc, ← here, ← there]
    rfl
  · exact (List.mem_append.mp member).elim (allowedBefore q) (allowedBehind q)

theorem read (may : allowed (.read p)) : Asks allowed (files.access.read p) :=
  fun _ => ⟨[.read p], rfl, List.forall_mem_singleton.mpr may⟩

theorem canonical? (may : allowed (.canonical p)) : Asks allowed (files.access.canonical? p) :=
  fun _ => ⟨[.canonical p], rfl, List.forall_mem_singleton.mpr may⟩

theorem filterMapM {f : α → StateM (List FileQuery) (Option β)} {as : List α}
    (each : ∀ a ∈ as, Asks allowed (f a)) : Asks allowed (as.filterMapM f) := by
  induction as with
  | nil => exact pure []
  | cons a as ih =>
    obtain ⟨here, others⟩ := List.forall_mem_cons.mp each
    rw [List.filterMapM_cons]
    refine here.bind fun b => ?_
    cases b with
    | none => exact ih others
    | some b => exact (ih others).bind fun bs => pure (b :: bs)

/-! ## Imports -/

theorem isSameFile {q : Path} (first : allowed (.canonical p)) (second : allowed (.canonical q)) :
    Asks allowed (files.access.isSameFile p q) := by
  refine (canonical? first).bind fun p' => (canonical? second).bind fun q' => ?_
  split <;> exact pure _

theorem import? {primary : Path} (own : allowed (.canonical primary))
    (may : ∀ q : FileQuery, q.path = p → allowed q) :
    Asks allowed (files.access.import? (some primary) p) := by
  refine (isSameFile own (may (.canonical p) rfl)).bind fun isPrimary => ?_
  cases isPrimary with
  | true => exact pure none
  | false =>
    refine (read (may (.read p) rfl)).bind fun text => ?_
    cases text <;> exact pure _

theorem imports {primary : Path} {paths : List Path} (own : allowed (.canonical primary))
    (may : ∀ q : FileQuery, q.path ∈ paths → allowed q) :
    Asks allowed (files.access.imports (some primary) paths) :=
  filterMapM fun _ member => import? own fun q same => may q (same ▸ member)

end Asks

namespace CommandLine

/-- What a request may ask of files. -/
structure Request.Allows (r : Request) (q : FileQuery) : Prop where
  safe : (Path.ofString r.path).isSafe = true
  named : q = .read (.ofString r.path) ∨
    (q.path = .ofString r.path ∨ q.path ∈ r.imports.map Path.ofString) ∧
      ∀ i ∈ r.imports, (Path.ofString i).isSafe = true

variable {files : ChangingFiles} {r : Request} {q : FileQuery}

/-- What is allowed is at a safe path. -/
theorem Request.Allows.isSafe (may : r.Allows q) : q.path.isSafe = true := by
  rcases may.named with rfl | ⟨primary | other, safe⟩
  · exact may.safe
  · exact primary ▸ may.safe
  · obtain ⟨i, member, same⟩ := List.mem_map.mp other
    exact same ▸ safe i member

theorem asks_answer (files : ChangingFiles) (r : Request) :
    Asks r.Allows (r.answer files.access) := by
  cases accepted : (Path.ofString r.path).isSafe with
  | false =>
    rw [Request.answer, readPrimary, accepted]
    exact Asks.pure _
  | true =>
    have primary : Asks r.Allows (readPrimary files.access r.path) := by
      rw [readPrimary, accepted]
      refine (Asks.read ⟨accepted, .inl rfl⟩).bind fun text => ?_
      split <;> exact Asks.pure _
    refine primary.bind fun text => ?_
    split
    case h_1 => exact Asks.pure _
    case h_2 =>
      split
      case h_1 => exact Asks.pure _
      case h_2 none =>
        have safe : ∀ i ∈ r.imports, (Path.ofString i).isSafe = true := by simpa using none
        refine (Asks.imports ?_ ?_).bind fun imports => Asks.pure _
        · exact ⟨accepted, .inr ⟨.inl rfl, safe⟩⟩
        · exact fun q member => ⟨accepted, .inr ⟨.inr member, safe⟩⟩

/-- A run asks only for what its request allows, and without a request for nothing. -/
theorem asks_run (files : ChangingFiles) (arguments : List String) :
    Asks (fun q => ∃ r, request? arguments = some r ∧ r.Allows q)
      (run files.access arguments) := by
  unfold run
  split
  case isFalse => exact Asks.pure _
  case isTrue =>
    cases asked : request? arguments with
    | none => exact Asks.pure _
    | some r =>
      have answered : Asks (fun q => ∃ r', some r = some r' ∧ r'.Allows q)
          (r.answer files.access) := fun past =>
        (asks_answer files r past).imp fun more ⟨record, allowed⟩ =>
          ⟨record, fun q member => ⟨r, rfl, allowed q member⟩⟩
      exact answered.bind fun _ => Asks.pure _

/-- **Paths of the command line cannot escape.** A safe path leads, from every absolute folder, to
where the folder is or below, and holds no character that would break a line. A path that says
nothing, is absolute, goes to the folder around or leads out of some folder is not safe. Whatever
the files answer, a run asks for nothing before the path of the file was found to be safe, and for
nothing but that file before the paths of all imports were; and every path that it asks for is
one of these. -/
theorem paths_cannot_escape :
    (∀ p base : Path, p.isSafe = true → base.isAbsolute = true →
      base.resolved <+: (base.join p).resolved) ∧
    (∀ p : Path, p.isSafe = true → ∀ c ∈ p.text, c ≠ '\x00' ∧ c ≠ '\n' ∧ c ≠ '\r' ∧ c ≠ '\t') ∧
    (∀ p base : Path, base.isAbsolute = true →
      p.text = [] ∨ p.isAbsolute = true ∨ ['.', '.'] ∈ p.parts ∨
        ¬base.resolved <+: (base.join p).resolved → p.isSafe = false) ∧
    ∀ files arguments, ∀ q ∈ ((run (ChangingFiles.access files) arguments).run []).2,
      q.path.isSafe = true ∧ ∃ r, request? arguments = some r ∧
        (Path.ofString r.path).isSafe = true ∧
        (q = .read (.ofString r.path) ∨
          (q.path = .ofString r.path ∨ q.path ∈ r.imports.map Path.ofString) ∧
            ∀ i ∈ r.imports, (Path.ofString i).isSafe = true) := by
  have below (p base : Path) (safe : p.isSafe = true) (folder : base.isAbsolute = true) :
      base.resolved <+: (base.join p).resolved :=
    ⟨p.names, (Path.resolved_join_of_isSafe safe folder).symm⟩
  refine ⟨below, fun p safe => (Path.of_isSafe safe).2.2, fun p base folder wrong => ?_, ?_⟩
  · refine Bool.eq_false_iff.mpr fun safe => ?_
    obtain ⟨⟨some, relative⟩, descends, -⟩ := Path.of_isSafe safe
    rcases wrong with nothing | absolute | around | outside
    · exact some nothing
    · exact Bool.false_ne_true (relative.symm.trans absolute)
    · exact descends around
    · exact outside (below p base safe folder)
  · intro files arguments q member
    obtain ⟨more, record, allowed⟩ := asks_run files arguments []
    rw [record, List.nil_append] at member
    obtain ⟨r, asked, may⟩ := allowed q member
    exact ⟨may.isSafe, r, asked, may.safe, may.named⟩

/-- Files of which each is empty. -/
def emptyFiles : ChangingFiles := ⟨fun _ _ => .ok [], fun _ p => some p⟩

/-- A run that is given a file and an import asks for both, and a path full of detours stays below a
folder that is itself written with one. -/
theorem paths_with_detours_stay_below :
    (Path.ofString "/srv/../rules/").resolved <+:
        ((Path.ofString "/srv/../rules/").join (Path.ofString ".//a/./b.xule")).resolved ∧
      (Path.ofString "a/../b").isSafe = false ∧
      ∃ q ∈ ((run emptyFiles.access ["--analyze", "--import", "b.xule", "a.xule"]).run []).2,
        q.path = .ofString "b.xule" ∧ q.path.isSafe = true := by
  obtain ⟨below, -, rejected, opened⟩ := paths_cannot_escape
  refine ⟨below _ _ (by decide) (by decide),
    rejected _ (.ofString "/") (by decide) (.inr (.inr (.inl (by decide)))), ?_⟩
  have asked : FileQuery.read (.ofString "b.xule") ∈
      ((run emptyFiles.access ["--analyze", "--import", "b.xule", "a.xule"]).run []).2 := by
    decide +kernel
  exact ⟨_, asked, rfl, (opened _ _ _ asked).1⟩

end CommandLine

end XuleLang
