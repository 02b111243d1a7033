import SpoolTag.Fault

/-!
# Paths on the host

A path is a row of names between slashes. The host follows it from its root, or from the directory
that it works in, and the first name that leads nowhere decides why the path cannot be opened. Of
the files of the host only the directories at the root are told apart here, since every Linux host
has them; `refusal` is the answer for a path that names none of the files meant to be opened.
-/

namespace SpoolTag.Path

/-- The most bytes in one name. -/
def maxName : Nat := 255

/-- The most bytes in a path, with the one that ends it. -/
def maxPath : Nat := 4096

/-- The names that a path is made of; empty ones and single dots do not move. -/
def names (path : String) : List String :=
  (path.splitOn "/").filter fun name => name ≠ "" && name ≠ "."

/-- The directories at the root of a host. -/
def standing : List String :=
  ["bin", "boot", "dev", "etc", "home", "lib", "media", "mnt", "opt", "proc", "root", "run", "sbin",
    "srv", "sys", "tmp", "usr", "var"]

/-- A directory on the way. -/
inductive Directory where
  | root
  | atRoot
  /-- A directory of which nothing is known but that it is there. -/
  | elsewhere
  deriving DecidableEq, Repr

/-- The directory above. -/
def Directory.parent : Directory → Directory
  | .root | .atRoot => .root
  | .elsewhere => .elsewhere

/-- The system error at the end of the way from a directory along some names. -/
def follow (d : Directory) : List String → Nat
  | [] => SystemError.isDirectory
  | name :: rest =>
    if name = ".." then follow d.parent rest
    else if maxName < name.utf8ByteSize then SystemError.nameTooLong
    else if d = .root ∧ name ∈ standing then follow .atRoot rest
    else SystemError.notFound

/-- Why a path cannot be opened for reading and writing when no file stands there. -/
def refusal (path : String) : IoError :=
  if path.toList.contains '\x00' then .nulInName
  else if maxPath ≤ path.utf8ByteSize then .system SystemError.nameTooLong
  else if path.isEmpty then .system SystemError.notFound
  else .system (follow (if path.startsWith "/" then .root else .elsewhere) (names path))

end SpoolTag.Path
