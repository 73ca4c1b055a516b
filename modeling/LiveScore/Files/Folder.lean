/-!
# Folders

A folder holds files under relative names and answers reading as a file system does: with the text
of a file, or with the reason why there is none. Names are resolved part by part, so a folder that
holds a file at a longer name also holds the folders on the way.
-/

namespace LiveScore

/-- Why a file gives no text. -/
inductive ReadError where
  /-- There is no file of that name. -/
  | missing
  | notFolder
  | isFolder
  | nameTooLong
  | nullInName
  /-- The bytes of the file are no text. -/
  | notText
  | other (description : String)
deriving DecidableEq

/-- The sentence that reports the error. -/
def ReadError.message : ReadError → String
  | missing => "No such file or directory (os error 2)"
  | notFolder => "Not a directory (os error 20)"
  | isFolder => "Is a directory (os error 21)"
  | nameTooLong => "File name too long (os error 36)"
  | nullInName => "file name contained an unexpected NUL byte"
  | notText => "stream did not contain valid UTF-8"
  | other description => description

/-- The parts of a path, without those that lead nowhere. -/
def Path.parts (path : String) : List String :=
  (path.splitOn "/").filter fun part => part ≠ "" && part ≠ "."

/-- A name that ends in a slash or a point can only be that of a folder. -/
def Path.demandsFolder (path : String) : Bool :=
  match (path.splitOn "/").getLast? with
  | some last => last = "" || last = "." || last = ".."
  | none => true

/-- A folder: the parts of each file's name with its bytes. -/
structure Folder where
  files : List (List String × ByteArray) := []
deriving Inhabited

namespace Folder

/-- What a name leads to. -/
inductive Entry where
  | file (bytes : ByteArray)
  | folder

/-- The entry at a resolved name. -/
def entryAt? (folder : Folder) (parts : List String) : Option Entry :=
  match folder.files.find? fun file => file.1 = parts with
  | some file => some (.file file.2)
  | none =>
    if parts = [] || folder.files.any fun file => parts.isPrefixOf file.1 then some .folder
    else none

/-- Resolves the parts of a name one by one, starting in the folder `inside`. -/
def resolve (folder : Folder) (inside : List String) : List String → Except ReadError (List String)
  | [] => .ok inside
  | part :: rest =>
    match folder.entryAt? inside with
    | none => .error .missing
    | some (.file _) => .error .notFolder
    | some .folder =>
      if 255 < part.utf8ByteSize then .error .nameTooLong
      else if part = ".." then folder.resolve inside.dropLast rest
      else folder.resolve (inside ++ [part]) rest

/-- The entry that a name leads to. -/
def lookup (folder : Folder) (path : String) : Except ReadError Entry := do
  if path.toList.contains '\x00' then throw .nullInName
  if path = "" then throw .missing
  if 4095 < path.utf8ByteSize then throw .nameTooLong
  let parts ← folder.resolve [] (Path.parts path)
  match folder.entryAt? parts with
  | none => throw .missing
  | some (.file bytes) => if Path.demandsFolder path then throw .notFolder else return .file bytes
  | some .folder => return .folder

/-- Reads the text of a file. -/
def read (folder : Folder) (path : String) : Except ReadError String := do
  match ← folder.lookup path with
  | .folder => throw .isFolder
  | .file bytes => match String.fromUTF8? bytes with
    | some text => return text
    | none => throw .notText

/-- Whether a name leads to something. -/
def contains (folder : Folder) (path : String) : Bool :=
  match folder.lookup path with
  | .ok _ => true
  | .error _ => false

/-- Writes a file, over an older one if there is one. -/
def write (folder : Folder) (path : String) (bytes : ByteArray) : Folder :=
  let parts := Path.parts path
  ⟨folder.files.filter (fun file => file.1 ≠ parts) ++ [(parts, bytes)]⟩

/-- Removes a file, if it is there. -/
def remove (folder : Folder) (path : String) : Folder :=
  ⟨folder.files.filter fun file => file.1 ≠ Path.parts path⟩

/-- Gives a file another name, replacing one that has it. -/
def rename (folder : Folder) (source target : String) : Folder :=
  match folder.files.find? fun file => file.1 = Path.parts source with
  | some file => (folder.remove source).write target file.2
  | none => folder

end Folder

end LiveScore
