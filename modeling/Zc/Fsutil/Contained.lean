import Mathlib.Data.List.DropRight
import Zc.Fsutil.SecureDir

/-!
# Reads below a fixed directory

`read_contained` walks a path one component at a time from an open directory and resolves symbolic
links itself, so that it notices when one leads outside.
-/

namespace zc.fsutil

/-- The components of a path, as `Path::components` compares them. -/
def components (path : String) : List String :=
  (str.split path '/').filter fun piece => piece != "" && piece != "."

def is_absolute (path : String) : Bool :=
  str.startsWith path "/"

/-- The pieces `Path::components` passes over. -/
def skipped (piece : String) : Bool :=
  piece == "" || piece == "."

/-- `Path::strip_prefix` on the pieces of a path: what follows the root's components, without skipped pieces at
    either end. -/
def stripPieces : List String → List String → Option (List String)
  | [], pieces => some ((pieces.dropWhile skipped).rdropWhile skipped)
  | _ :: _, [] => none
  | name :: names, piece :: pieces =>
    if skipped piece then stripPieces (name :: names) pieces
    else if piece = name then stripPieces names pieces
    else none

/-- The pieces of a path below the root; nothing below it is one empty piece. -/
def stripRoot (root_path path : String) : Option (List String) :=
  (stripPieces (components root_path) (str.split path '/')).map fun pieces => if pieces = [] then [""] else pieces

/-- Where the walk is: the directories entered, the innermost first, and their names. -/
structure Position where
  dirs : List Nat
  names : List String

/-- What follows from one symbolic link: the position it continues from and its pieces. -/
def follow (root : Nat) (root_path : String) (position : Position) (target : List UInt8) :
    Result (Position × List String) := do
  let target ← okOr (str.from_utf8 target) (invalid "non-UTF8 symlink")
  if is_absolute target then do
    let pieces ← okOr (stripRoot root_path target) (invalid "asset symlink outside source root")
    return (⟨[root], []⟩, pieces)
  else return (position, str.split target '/')

/-- The final component: a regular file, read whole. -/
def Fs.read_last (fs : Fs) (position : Position) (part : String) (limit : Nat) : Result (String × List UInt8) := do
  let m ← fs.openat (position.dirs.headD 0) part false
  check_metadata m false false
  let bytes ← fs.read_bounded m limit 0
  return ("/".intercalate (part :: position.names).reverse, bytes)

def HOP_LIMIT : Nat := 40
def STEP_LIMIT : Nat := 163840

/-- The loop; `steps` more components may be taken. -/
def Fs.walk (fs : Fs) (root : Nat) (root_path : String) (limit : Nat) :
    Nat → Nat → Position → List String → Result (String × List UInt8)
  | _, _, _, [] => .error (invalid "asset is not a regular file")
  | 0, _, _, _ => .error (invalid "asset path walk limit exceeded")
  | steps + 1, hops, position, part :: pending =>
    if part = "" ∨ part = "." then fs.walk root root_path limit steps hops position pending
    else if part = ".." then
      if position.dirs.length = 1 then .error (invalid "asset outside source root")
      else fs.walk root root_path limit steps hops ⟨position.dirs.tail, position.names.tail⟩ pending
    else
      match fs.lookup (position.dirs.headD 0) part with
      | some (.symlink target) =>
        if hops = HOP_LIMIT then .error (invalid "too many asset symlinks")
        else
          match follow root root_path position target with
          | .error error => .error error
          | .ok (position, pieces) => fs.walk root root_path limit steps (hops + 1) position (pieces ++ pending)
      | _ =>
        if pending = [] then fs.read_last position part limit
        else
          match fs.open_directory (position.dirs.headD 0) part with
          | .error error => .error error
          | .ok m => fs.walk root root_path limit steps hops ⟨m.ino :: position.dirs, part :: position.names⟩ pending

def relative_pieces (root_path logical : String) : Result (List String) :=
  if is_absolute logical then okOr (stripRoot root_path logical) (invalid "asset outside source root")
  else .ok (str.split logical '/')

/-- The target and bytes of a path below `root`, whose own path is `root_path`. -/
def Fs.read_contained (fs : Fs) (root : Nat) (root_path logical : String) (limit : Nat) : Result (String × List UInt8) := do
  ensure (logical != "" && !logical.toList.contains '\x00') (invalid "invalid asset path")
  let pieces ← relative_pieces root_path logical
  fs.walk root root_path limit STEP_LIMIT 0 ⟨[root], []⟩ pieces

end zc.fsutil
