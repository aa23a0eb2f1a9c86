import Abacus.Source

/-!
A folder of files as the program meets it: names that open or do not, and what reading gives then.
-/
namespace Abacus

inductive Entry where
  | file (content : List UInt8)
  | folder
  | unreadable (reason : String)
  deriving DecidableEq, Repr

inductive OpenError where
  | missing
  | notFolder
  | tooLong
  | other (reason : String)
  deriving DecidableEq, Repr

def OpenError.message (name : String) : OpenError → String
  | .missing => "open " ++ name ++ ": no such file or directory"
  | .notFolder => "open " ++ name ++ ": not a directory"
  | .tooLong => "open " ++ name ++ ": file name too long"
  | .other reason => "open " ++ name ++ ": " ++ reason

/-- The text behind an entry. A folder opens, but reading it fails. -/
def Entry.source (name : String) : Entry → Source
  | .file content => .ofBytes content
  | .folder => ⟨[], .failed ("read " ++ name ++ ": is a directory")⟩
  | .unreadable reason => ⟨[], .failed ("read " ++ name ++ ": " ++ reason)⟩

structure Folder where
  entries : List (String × Entry)

/-- Where a path has led so far: to the folder itself, to one of its entries, or out of it. -/
inductive Place where
  | home
  | inside (entry : Entry)
  | outside
  deriving DecidableEq, Repr

def Place.entry : Place → Entry
  | .inside entry => entry
  | .home | .outside => .folder

namespace Folder

def partLimit : Nat := 255

def pathLimit : Nat := 4095

/-- One step from a place. Outside the folder nothing is known to exist but folders above. -/
def step (folder : Folder) (place : Place) (part : String) : Except OpenError Place :=
  match place with
  | .inside (.file _) | .inside (.unreadable _) => .error .notFolder
  | _ =>
      if part = "" ∨ part = "." then .ok place
      else if part = ".." then
        .ok (match place with
          | .inside _ => .home
          | .home | .outside => .outside)
      else if partLimit < part.utf8ByteSize then .error .tooLong
      else match place, folder.entries.lookup part with
        | .home, some entry => .ok (.inside entry)
        | _, _ => .error .missing

def openEntry (folder : Folder) (path : String) : Except OpenError Entry :=
  if path = "" then .error .missing
  else if pathLimit < path.utf8ByteSize then .error .tooLong
  else
    let start := if path.toList.head? = some '/' then Place.outside else .home
    ((path.splitOn "/").foldlM folder.step start).map Place.entry

end Folder
end Abacus
