/-!
# Failures to use a file

Why a file cannot be read or written, with the number and the wording under
which the operating system reports it.
-/

namespace Rv32

inductive FileError where
  | notFound
  | noDevice
  | permissionDenied
  | notDirectory
  | isDirectory
  | storageFull
  | nameTooLong
  | other (code : Nat) (message : String)
  deriving DecidableEq, Repr

namespace FileError

def code : FileError → Nat
  | notFound => 2
  | noDevice => 6
  | permissionDenied => 13
  | notDirectory => 20
  | isDirectory => 21
  | storageFull => 28
  | nameTooLong => 36
  | other code _ => code

def kind : FileError → String
  | notFound => "NotFound"
  | noDevice => "Uncategorized"
  | permissionDenied => "PermissionDenied"
  | notDirectory => "NotADirectory"
  | isDirectory => "IsADirectory"
  | storageFull => "StorageFull"
  | nameTooLong => "InvalidFilename"
  | other _ _ => "Uncategorized"

def message : FileError → String
  | notFound => "No such file or directory"
  | noDevice => "No such device or address"
  | permissionDenied => "Permission denied"
  | notDirectory => "Not a directory"
  | isDirectory => "Is a directory"
  | storageFull => "No space left on device"
  | nameTooLong => "File name too long"
  | other _ message => message

/-- The failures that have a name of their own. -/
def named : List FileError :=
  [notFound, noDevice, permissionDenied, notDirectory, isDirectory, storageFull, nameTooLong]

def ofCode (code : Nat) (message : String) : FileError :=
  (named.find? fun e => e.code == code).getD (other code message)

theorem code_ofCode (n : Nat) (message : String) : (ofCode n message).code = n := by
  unfold ofCode
  cases h : named.find? fun e => e.code == n with
  | none => rfl
  | some e => simpa using List.find?_some h

def text (e : FileError) : String :=
  s!"Os \x7b code: {e.code}, kind: {e.kind}, message: \"{e.message}\" \x7d"

end FileError

end Rv32
