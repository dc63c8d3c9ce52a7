namespace SearchRelay

inductive Errno
  | notPermitted
  | notFound
  | noDevice
  | permissionDenied
  | noInterface
  | notDirectory
  | isDirectory
  | invalidArgument
  | nameTooLong
  | tooManyLinks
  | addressInUse
  | addressNotAvailable
  | networkUnreachable
  deriving DecidableEq, Repr

namespace Errno

def code : Errno → Nat
  | notPermitted => 1
  | notFound => 2
  | noDevice => 6
  | permissionDenied => 13
  | noInterface => 19
  | notDirectory => 20
  | isDirectory => 21
  | invalidArgument => 22
  | nameTooLong => 36
  | tooManyLinks => 40
  | addressInUse => 98
  | addressNotAvailable => 99
  | networkUnreachable => 101

def all : List Errno :=
  [notPermitted, notFound, noDevice, permissionDenied, noInterface, notDirectory, isDirectory,
    invalidArgument, nameTooLong, tooManyLinks, addressInUse, addressNotAvailable,
    networkUnreachable]

def ofCode? (n : Nat) : Option Errno := all.find? fun e => e.code == n

def text : Errno → String
  | notPermitted => "Operation not permitted"
  | notFound => "No such file or directory"
  | noDevice => "No such device or address"
  | permissionDenied => "Permission denied"
  | noInterface => "No such device"
  | notDirectory => "Not a directory"
  | isDirectory => "Is a directory"
  | invalidArgument => "Invalid argument"
  | nameTooLong => "File name too long"
  | tooManyLinks => "Too many levels of symbolic links"
  | addressInUse => "Address already in use"
  | addressNotAvailable => "Cannot assign requested address"
  | networkUnreachable => "Network is unreachable"

def kind : Errno → String
  | notPermitted | permissionDenied => "PermissionDenied"
  | notFound => "NotFound"
  | noDevice | noInterface => "Uncategorized"
  | notDirectory => "NotADirectory"
  | isDirectory => "IsADirectory"
  | invalidArgument => "InvalidInput"
  | nameTooLong => "InvalidFilename"
  | tooManyLinks => "FilesystemLoop"
  | addressInUse => "AddrInUse"
  | addressNotAvailable => "AddrNotAvailable"
  | networkUnreachable => "NetworkUnreachable"

end Errno

inductive IoError
  | system (errno : Errno)
  /-- A path with a NUL is refused before the system sees it. -/
  | nulInPath
  deriving DecidableEq, Repr

namespace IoError

def message : IoError → String
  | system e => s!"{e.text} (os error {e.code})"
  | nulInPath => "file name contained an unexpected NUL byte"

def details : IoError → String
  | system e =>
    s!"Os \x7b code: {e.code}, kind: {e.kind}, message: \"{e.text}\" \x7d"
  | nulInPath =>
    "Error \x7b kind: InvalidInput, message: \"file name contained an unexpected NUL byte\" \x7d"

def isNotFound : IoError → Bool
  | system .notFound => true
  | _ => false

end IoError

end SearchRelay
