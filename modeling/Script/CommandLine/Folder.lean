import Script.CommandLine.Outcome
/-!
# Folders held in memory

A call from the command line can be answered without a disk.  Paths are resolved in a tree of
folders as a file system does it: name by name, and only a folder has names below it.
-/

namespace Script.CommandLine

inductive Entry
  | file (content : ByteArray)
  | folder (entries : List (String × Entry))

namespace Entry

/-- The folder around the outermost folder, of which nothing is known. -/
def unknown : Entry := folder []

/-- Follows the names of a path from an entry, where `around` are the folders around it, the
nearest one first. -/
def follow : (around : List Entry) → Entry → List String → Except ReadError Entry
  | _, entry, [] => .ok entry
  | _, file _, _ :: _ => .error .notDirectory
  | around, folder entries, name :: names =>
    if name = "" ∨ name = "." then follow around (folder entries) names
    else if name = ".." then
      match around with
      | [] => follow [] unknown names
      | outer :: others => follow others outer names
    else
      match entries.lookup name with
      | some entry => follow (folder entries :: around) entry names
      | none => .error .missing

/-- The content of the file that a path names, seen from inside the folder `here`. -/
def read (here : Entry) (path : String) : Except ReadError ByteArray := do
  let start := if path.startsWith "/" then unknown else here
  match ← follow [] start (path.splitOn "/") with
  | file content => .ok content
  | folder _ => .error .isDirectory

end Entry

end Script.CommandLine
