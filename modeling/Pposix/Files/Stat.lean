-- SUMMARY: `stat.hpp`: permissions, and the literals that make them of strings.
import Pposix.Os.Syscall

/-!
# Permissions

A literal such as `"rw"_user` is a loop over the characters of its string. The three
literals share the loop and the function for one character, and differ in the constants
that they pass to it.
-/

/-- `char`. -/
abbrev CChar := UInt8

/-- `capi::permission`, an enumeration that is used as a mask. -/
abbrev Permission := Word

namespace Permission

def none : Permission := 0

def userRead : Permission := 0o400
def userWrite : Permission := 0o200
def userExecute : Permission := 0o100
def userAll : Permission := 0o700

def groupRead : Permission := 0o040
def groupWrite : Permission := 0o020
def groupExecute : Permission := 0o010
def groupAll : Permission := 0o070

def otherRead : Permission := 0o004
def otherWrite : Permission := 0o002
def otherExecute : Permission := 0o001
def otherAll : Permission := 0o007

end Permission

/-- `detail::str_to_permission`; `str` has the `len` characters at `c_str`. -/
def strToPermission (str : List CChar) (charToPermission : CChar → Permission) : Permission :=
  str.foldl (fun p c => p ||| charToPermission c) 0

/-- `detail::char_to_permission`. -/
def charToPermission (Read Write Execute : Permission) (c : CChar) : Permission :=
  if c = 'R'.toUInt8 ∨ c = 'r'.toUInt8 then Read
  else if c = 'W'.toUInt8 ∨ c = 'w'.toUInt8 then Write
  else if c = 'X'.toUInt8 ∨ c = 'x'.toUInt8 then Execute
  else .none

namespace Literal

/-- `operator"" _user`. -/
def user (str : List CChar) : Permission :=
  strToPermission str
    (charToPermission Permission.userRead Permission.userWrite Permission.userExecute)

/-- `operator"" _group`. -/
def group (str : List CChar) : Permission :=
  strToPermission str
    (charToPermission Permission.groupRead Permission.groupWrite Permission.groupExecute)

/-- `operator"" _other`. -/
def other (str : List CChar) : Permission :=
  strToPermission str
    (charToPermission Permission.otherRead Permission.otherWrite Permission.otherExecute)

end Literal
