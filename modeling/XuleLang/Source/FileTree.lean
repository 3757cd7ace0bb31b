import XuleLang.Source.FileAccess
import XuleLang.Text.Utf8

/-!
Files in memory.

A file has a place, which is the list of the names that lead to it, and bytes. The folders are
those that the files lie in, and one from which paths are followed that are not absolute.

A path is followed part by part. Each part must be met in a folder: one that says nothing stays
there, and two points lead to the folder around, or stay where there is none.
-/

namespace XuleLang

/-- Files in memory, by the names that lead to them. -/
structure FileTree where
  files : List (List (List Char) × List UInt8)
  /-- Where paths begin that are not absolute. -/
  folder : List (List Char)
deriving Repr

namespace FileTree

/-- The bytes of the file at a place. -/
def bytes? (t : FileTree) (place : List (List Char)) : Option (List UInt8) :=
  t.files.lookup place

/-- Whether there is a folder at a place. -/
def isFolder (t : FileTree) (place : List (List Char)) : Bool :=
  place.isPrefixOf t.folder ||
    t.files.any fun f => place.isPrefixOf f.1 && place.length < f.1.length

/-- The number of bytes that a name may have. -/
def nameLimit : Nat := 255

/-- The number of bytes that a path may have by which a file is read. -/
def pathLimit : Nat := 4095

/-- Follows parts of a path from a place. -/
def follow (t : FileTree) (place : List (List Char)) :
    List (List Char) → Except ReadError (List (List Char))
  | [] => .ok place
  | part :: parts =>
    if !t.isFolder place then .error .notFolder
    else if Path.isSilent part then t.follow place parts
    else if part = ['.', '.'] then t.follow place.dropLast parts
    else if nameLimit < (encodeUtf8 part).length then .error .nameTooLong
    else if t.isFolder (place ++ [part]) || (t.bytes? (place ++ [part])).isSome then
      t.follow (place ++ [part]) parts
    else .error .notFound

/-- The place that a path leads to. -/
def place (t : FileTree) (p : Path) : Except ReadError (List (List Char)) :=
  if p.text.isEmpty then .error .notFound
  else t.follow (if p.isAbsolute then [] else t.folder) p.parts

/-- The text of the file at a path. -/
def read (t : FileTree) (p : Path) : Except ReadError (List Char) := do
  if pathLimit < (encodeUtf8 p.text).length then throw .nameTooLong
  match t.bytes? (← t.place p) with
  | none => .error .isFolder
  | some bytes =>
    match decodeUtf8? bytes with
    | some text => .ok text
    | none => .error .notText

/-- The path without detours of what a path leads to. -/
def canonical? (t : FileTree) (p : Path) : Option Path :=
  (t.place p).toOption.map fun names => ⟨'/' :: joinWith '/' names⟩

/-- Access to the files. -/
def access (t : FileTree) : FileAccess Id := ⟨t.read, t.canonical?⟩

end FileTree

end XuleLang
