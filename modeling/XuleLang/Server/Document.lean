import XuleLang.Analysis.State
import XuleLang.Text.ContentHash
import XuleLang.Url.File

/-!
Documents that an editor has open, and what is known about them.

A document keeps the last analysis that was committed for it, and the hash of the text that it was
an analysis of. Every text that an editor gives a document comes with a new stamp, and so does every
demand to look at the document once more. Stamps are counted over all documents and are never used
again, so a validation knows by the stamp it began with whether it is still wanted: `commit?`
refuses it when the document has another stamp by then, or is no longer open.

The hash is forgotten when the settings change, while the analysis stays: it still answers requests,
on the text that the document has by then.
-/

namespace XuleLang

/-- A document that is open. -/
structure Document where
  text : List Char
  version : Int
  stamp : Nat
  /-- The last analysis that was committed. -/
  analysis : Option Analysis
  /-- The hash of the text that was analysed, unless it has to be analysed once more. -/
  analyzedHash : Option UInt64
deriving Repr

/-- What a validation begins with. -/
structure Snapshot where
  text : List Char
  version : Int
  stamp : Nat
deriving DecidableEq, Repr

namespace Document

/-- A document of which nothing is known but its text. -/
def unknown (text : List Char) (version : Int) (stamp : Nat) : Document :=
  ⟨text, version, stamp, none, none⟩

/-- Whether the text is the one that was analysed. -/
def isAnalyzed (d : Document) : Bool := d.analyzedHash == some (contentHash d.text)

/-- What a validation begins with. -/
def snapshot (d : Document) : Snapshot := ⟨d.text, d.version, d.stamp⟩

/-- An analysis of the text. One of another text lends its imports and its namespaces. -/
def currentAnalysis? (d : Document) : Option Analysis :=
  d.analysis.map fun a => if d.isAnalyzed then a else a.withText d.text

/-- The document with another text. What was analysed stays. -/
def changed (d : Document) (text : List Char) (version : Int) (stamp : Nat) : Document :=
  { d with text := text, version := version, stamp := stamp }

/-- The document when it has to be analysed once more. -/
def outdated (d : Document) (stamp : Nat) : Document :=
  { d with analyzedHash := none, stamp := stamp }

/-- The document with the analysis of a text. -/
def analyzed (d : Document) (text : List Char) (a : Analysis) : Document :=
  { d with analysis := some a, analyzedHash := some (contentHash text) }

end Document

/-- The open documents, each URL once. -/
structure Documents where
  entries : List (Url × Document)
  /-- A stamp that was never used, nor any greater one. -/
  nextStamp : Nat
deriving Repr

namespace Documents

/-- No document was ever open. -/
def empty : Documents := ⟨[], 1⟩

/-- Puts a document in place of the one with its URL, or behind all others. -/
def put (url : Url) (d : Document) : List (Url × Document) → List (Url × Document)
  | [] => [(url, d)]
  | (other, old) :: rest =>
    if other = url then (url, d) :: rest else (other, old) :: put url d rest

/-- The document with a URL, if it is open. -/
def find? (ds : Documents) (url : Url) : Option Document := ds.entries.lookup url

/-- The documents with one that is known by its text only. -/
def opened (ds : Documents) (url : Url) (version : Int) (text : List Char) : Documents :=
  ⟨put url (.unknown text version ds.nextStamp) ds.entries, ds.nextStamp + 1⟩

/-- The documents after one was given another text. It need not have been open. -/
def changed (ds : Documents) (url : Url) (version : Int) (text : List Char) : Documents :=
  let d := (ds.find? url).getD (.unknown text version ds.nextStamp)
  ⟨put url (d.changed text version ds.nextStamp) ds.entries, ds.nextStamp + 1⟩

/-- The documents without one. -/
def closed (ds : Documents) (url : Url) : Documents :=
  { ds with entries := ds.entries.filter (·.1 != url) }

/-- Documents with new stamps from `stamp` on, all of which have to be analysed once more. -/
def restamp (stamp : Nat) : List (Url × Document) → List (Url × Document)
  | [] => []
  | (url, d) :: rest => (url, d.outdated stamp) :: restamp (stamp + 1) rest

/-- The documents after the settings changed. -/
def outdated (ds : Documents) : Documents :=
  ⟨restamp ds.nextStamp ds.entries, ds.nextStamp + ds.entries.length⟩

/-- What a validation of a document begins with. None is needed where the text was analysed. -/
def snapshot? (ds : Documents) (url : Url) : Option Snapshot := do
  let d ← ds.find? url
  if d.analysis.isSome && d.isAnalyzed then none else some d.snapshot

/-- The documents with the analysis of a snapshot, if the document is as it was then. -/
def commit? (ds : Documents) (url : Url) (s : Snapshot) (a : Analysis) : Option Documents := do
  let d ← ds.find? url
  guard (d.stamp = s.stamp)
  return { ds with entries := put url (d.analyzed s.text a) ds.entries }

/-- The analysis that answers requests about a document. -/
def analysisFor? (ds : Documents) (url : Url) : Option Analysis :=
  (ds.find? url).bind Document.currentAnalysis?

/-! ## What is found afterwards -/

section

variable {ds ds' : Documents} {url other : Url} {d : Document} {s : Snapshot} {a : Analysis}

private theorem lookup_cons_ite (key : Url) (rest : List (Url × Document)) :
    ((key, d) :: rest).lookup other = if other = key then some d else rest.lookup other := by
  rw [List.lookup_cons]
  by_cases same : other = key
  · simp [same]
  · simp [beq_eq_false_iff_ne.mpr same, same]

theorem lookup_put (entries : List (Url × Document)) :
    (put url d entries).lookup other = if other = url then some d else entries.lookup other := by
  induction entries with
  | nil => exact lookup_cons_ite url []
  | cons entry rest ih =>
    obtain ⟨key, old⟩ := entry
    by_cases here : key = url
    · subst here
      simp only [put, ↓reduceIte, lookup_cons_ite]
      split <;> rfl
    · simp only [put, if_neg here, lookup_cons_ite, ih]
      by_cases same : other = url
      · simp [same, Ne.symm here]
      · simp [same]

@[simp] theorem find?_opened (version : Int) (text : List Char) :
    (ds.opened url version text).find? other =
      if other = url then some (.unknown text version ds.nextStamp) else ds.find? other :=
  lookup_put ds.entries

@[simp] theorem find?_changed (version : Int) (text : List Char) :
    (ds.changed url version text).find? other =
      if other = url then
        some (((ds.find? url).getD (.unknown text version ds.nextStamp)).changed text version
          ds.nextStamp)
      else ds.find? other :=
  lookup_put ds.entries

@[simp] theorem find?_closed :
    (ds.closed url).find? other = if other = url then none else ds.find? other := by
  obtain ⟨entries, stamp⟩ := ds
  simp only [closed, find?]
  induction entries with
  | nil => simp
  | cons entry rest ih =>
    obtain ⟨key, old⟩ := entry
    by_cases here : key = url
    · subst here
      simp only [List.filter_cons, bne_self_eq_false, Bool.false_eq_true, ↓reduceIte, ih,
        lookup_cons_ite]
      split <;> rfl
    · simp only [List.filter_cons, bne_iff_ne.mpr here, ↓reduceIte, lookup_cons_ite, ih]
      by_cases same : other = url
      · simp [same, Ne.symm here]
      · simp [same]

/-- Whatever is found among restamped documents was there before, and its stamp is one of those
that were given out. -/
theorem outdated_of_lookup_restamp {entries : List (Url × Document)} {stamp : Nat}
    (found : (restamp stamp entries).lookup url = some d) :
    ∃ before given, entries.lookup url = some before ∧ d = before.outdated given ∧
      stamp ≤ given ∧ given < stamp + entries.length := by
  induction entries generalizing stamp with
  | nil => simp [restamp] at found
  | cons entry rest ih =>
    obtain ⟨key, old⟩ := entry
    simp only [restamp, lookup_cons_ite] at found ⊢
    by_cases same : url = key
    · simp only [same, ↓reduceIte, Option.some.injEq] at found ⊢
      exact ⟨old, stamp, rfl, found.symm, Nat.le_refl _, by simp⟩
    · simp only [same, ↓reduceIte] at found ⊢
      obtain ⟨before, given, there, shape, low, high⟩ := ih found
      exact ⟨before, given, there, shape, by omega, by simp only [List.length_cons]; omega⟩

theorem lookup_restamp_eq_none {entries : List (Url × Document)} {stamp : Nat} :
    (restamp stamp entries).lookup url = none ↔ entries.lookup url = none := by
  induction entries generalizing stamp with
  | nil => rfl
  | cons entry rest ih =>
    obtain ⟨key, old⟩ := entry
    by_cases same : url = key <;> simp [restamp, lookup_cons_ite, same, ih]

theorem find?_outdated_eq_none : ds.outdated.find? url = none ↔ ds.find? url = none :=
  lookup_restamp_eq_none

/-- A document that has to be looked at once more was open, and has a stamp that was never used. -/
theorem find?_outdated (found : ds.outdated.find? url = some d) :
    ∃ before given, ds.find? url = some before ∧ d = before.outdated given ∧
      ds.nextStamp ≤ given ∧ given < ds.outdated.nextStamp :=
  outdated_of_lookup_restamp found

theorem snapshot?_eq_some_iff :
    ds.snapshot? url = some s ↔ ∃ d, ds.find? url = some d ∧
      (d.analysis.isSome && d.isAnalyzed) = false ∧ d.snapshot = s := by
  simp only [snapshot?]
  cases found : ds.find? url with
  | none => simp
  | some d => cases known : (d.analysis.isSome && d.isAnalyzed) <;> simp

/-- A snapshot is refused exactly where the document is closed or was analysed. -/
theorem snapshot?_eq_none_iff :
    ds.snapshot? url = none ↔
      ∀ d, ds.find? url = some d → (d.analysis.isSome && d.isAnalyzed) = true := by
  simp only [snapshot?]
  cases found : ds.find? url with
  | none => simp
  | some d => cases known : (d.analysis.isSome && d.isAnalyzed) <;> simp

private theorem commit?_eq_bind :
    ds.commit? url s a = (ds.find? url).bind fun d => if d.stamp = s.stamp then
      some { ds with entries := put url (d.analyzed s.text a) ds.entries } else none := by
  unfold commit?
  congr 1
  funext d
  by_cases same : d.stamp = s.stamp
  · have passes : (guard (d.stamp = s.stamp) : Option Unit) = some () := if_pos same
    rw [passes, if_pos same]
    rfl
  · have stops : (guard (d.stamp = s.stamp) : Option Unit) = none := if_neg same
    rw [stops, if_neg same]
    rfl

theorem commit?_eq_some_iff :
    ds.commit? url s a = some ds' ↔ ∃ d, ds.find? url = some d ∧ d.stamp = s.stamp ∧
      { ds with entries := put url (d.analyzed s.text a) ds.entries } = ds' := by
  simp only [commit?_eq_bind, Option.bind_eq_some_iff, Option.ite_none_right_eq_some,
    Option.some.injEq]

/-- What was committed is found for its document, and all others are found as before. -/
theorem find?_of_commit? (kept : ds.commit? url s a = some ds') :
    ∃ d, ds.find? url = some d ∧ d.stamp = s.stamp ∧ ds'.nextStamp = ds.nextStamp ∧
      ∀ other, ds'.find? other =
        if other = url then some (d.analyzed s.text a) else ds.find? other := by
  obtain ⟨d, found, current, rfl⟩ := commit?_eq_some_iff.mp kept
  exact ⟨d, found, current, rfl, fun other => lookup_put ds.entries⟩

/-- An analysis is refused exactly where the document is closed or has another stamp. -/
theorem commit?_eq_none_iff :
    ds.commit? url s a = none ↔ ∀ d, ds.find? url = some d → d.stamp ≠ s.stamp := by
  simp only [commit?_eq_bind, Option.bind_eq_none_iff, ite_eq_right_iff, reduceCtorEq, imp_false]

end

end Documents

end XuleLang
