import BlockFs.MetaDefines
import Mathlib.Data.List.DropRight

namespace BlockFs

abbrev Errno := Nat

def EPERM : Errno := 1
def ENOENT : Errno := 2
def EBADF : Errno := 9
def EACCES : Errno := 13
def EBUSY : Errno := 16
def EEXIST : Errno := 17
def ENOTDIR : Errno := 20
def EISDIR : Errno := 21
def EINVAL : Errno := 22
def ENFILE : Errno := 23
def EMFILE : Errno := 24
def ENAMETOOLONG : Errno := 36
def ENOLCK : Errno := 37
def ENOTEMPTY : Errno := 39

/-- A lookup that fails either leaves `errno` alone or stores a value in it. -/
abbrev Lookup (α : Type) := Except (Option Errno) α

/-- `GetFileName`: what follows the last separator. -/
def getFileName (path : Name) : Name := path.rtakeWhile (· != '/')

/-- `fs::path::parent_path`: the path without its last component and the separators before it;
a path of separators only is its own parent. -/
def parentPath (path : Name) : Name :=
  if path.all (· == '/') then path
  else
    let upto := path.rdropWhile (· != '/')
    let parent := upto.rdropWhile (· == '/')
    if parent.isEmpty && !upto.isEmpty then ['/'] else parent

/-- `GetDirName`: the parent directory with its trailing separator. -/
def getDirName (path : Name) : Name :=
  if path = ['/'] then path
  else
    let tmp := if path.getLast? = some '/' then path.dropLast else path
    let parent := parentPath tmp
    if parent = ['/'] then parent else parent ++ ['/']

def isMountPoint (dirname : Name) : Bool := dirname == ['/']

namespace DirHandle

/-- `DirHandle::TransformPath`. -/
def transformPath (path : Name) : Lookup Name :=
  let dirName := if path.getLast? = some '/' then path else path ++ ['/']
  if kBlockFsMaxDirNameLen ≤ dirName.length then .error (some ENAMETOOLONG) else .ok dirName

end DirHandle

namespace FileHandle

/-- `FileHandle::TransformPath`: the directory part and the file name of a path. -/
def transformPath (filename : Name) : Lookup (Name × Name) :=
  if filename.getLast? = some '/' then .error (some ENOTDIR)
  else if kBlockFsMaxFileNameLen ≤ (getFileName filename).length then .error (some ENAMETOOLONG)
  else .ok (getDirName filename, getFileName filename)

end FileHandle

example : getDirName ['/', 'a', '/', 'b'] = ['/', 'a', '/'] := by decide
example : getFileName ['/', 'a', '/', 'b'] = ['b'] := by decide

end BlockFs
