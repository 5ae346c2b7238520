import Scdk.Basic

/-! # The initrd file table

    Model of the queries of `mm/initrd.c`: finding a file, and the directories
    that follow from the paths of the files.

    A C string is the list of its characters before the terminating zero. -/

namespace Scdk

/-! ## Strings -/

/-- `'/'` -/
def slash : UInt8 := 47

/-- The C string that starts at the first of these bytes. -/
def cString (bytes : List UInt8) : List UInt8 := bytes.takeWhile (· ≠ 0)

/-! ## Files -/

/-- `SCDK_INITRD_MAX_PATH` -/
abbrev initrdMaxPath : Nat := 128

/-- `struct scdk_initrd_entry`; `data` and `size` are the bytes of the file. -/
structure InitrdFile where
  path : List UInt8
  data : List UInt8
  flags : UInt32
  deriving DecidableEq, Repr

/-- The field `size`. -/
def InitrdFile.size (f : InitrdFile) : UInt64 := UInt64.ofNat f.data.length

/-- The statics of `initrd.c`. -/
structure Initrd where
  files : List InitrdFile
  initialized : Bool
  deriving DecidableEq, Repr

/-- `scdk_initrd_find` -/
def initrdFind (initrd : Initrd) (path : List UInt8) : Except Err InitrdFile :=
  if initrd.initialized = false then .error .notsup
  else
    match initrd.files.find? fun f => f.path == path with
    | none => .error .noent
    | some f => .ok f

/-! ## Directories -/

namespace VfsNode

/-- `SCDK_VFS_NODE_FILE` -/
def file : UInt64 := 1

/-- `SCDK_VFS_NODE_DIR` -/
def dir : UInt64 := 2

end VfsNode

/-- `SCDK_VFS_MAX_NAME` -/
abbrev vfsMaxName : Nat := 64

/-- `struct scdk_vfs_dirent` -/
structure Dirent where
  name : List UInt8
  type : UInt64
  size : UInt64
  deriving DecidableEq, Repr

/-- `normalized_query_len`, by the number of characters still looked at. -/
def normalizedLen (path : List UInt8) : Nat → Nat
  | 0 => 0
  | n + 1 => if 1 < n + 1 ∧ path[n]? = some slash then normalizedLen path n else n + 1

/-- `normalized_query_len` -/
def normalizedQueryLen (path : List UInt8) : Nat := normalizedLen path path.length

/-- `path_eq_len` -/
def pathEqLen (path query : List UInt8) (queryLen : Nat) : Bool :=
  path.length = queryLen ∧ path = query.take queryLen

/-- `path_has_dir_prefix` -/
def pathHasDirPrefix (path query : List UInt8) (queryLen : Nat) : Bool :=
  if queryLen = 1 ∧ query[0]? = some slash then path[0]? = some slash ∧ 1 < path.length
  else
    queryLen + 1 < path.length ∧ path.take queryLen = query.take queryLen ∧
      path[queryLen]? = some slash

/-- `scdk_initrd_stat`: the type and the size. -/
def initrdStat (initrd : Initrd) (path : List UInt8) : Except Err (UInt64 × UInt64) :=
  if initrd.initialized = false then .error .notsup
  else if path[0]? ≠ some slash then .error .inval
  else
    let queryLen := normalizedQueryLen path
    if queryLen = 1 then .ok (VfsNode.dir, 0)
    else
      match initrd.files.find? fun f => pathEqLen f.path path queryLen with
      | some f => .ok (VfsNode.file, f.size)
      | none =>
        match initrd.files.find? fun f => pathHasDirPrefix f.path path queryLen with
        | some _ => .ok (VfsNode.dir, 0)
        | none => .error .noent

/-- The search of `add_dirent` for an entry of that name; a directory takes the
    place of a file. -/
def mergeDirent (name : List UInt8) (type : UInt64) : List Dirent → Option (List Dirent)
  | [] => none
  | d :: ds =>
    if d.name = name then
      some ((if type = VfsNode.dir then { d with type := VfsNode.dir, size := 0 } else d) :: ds)
    else (mergeDirent name type ds).map (d :: ·)

/-- `add_dirent`: the entries so far, with the new one. -/
def addDirent (entries : List Dirent) (capacity : UInt64) (name : List UInt8)
    (type size : UInt64) : Except Err (List Dirent) :=
  if name = [] then .error .inval
  else if vfsMaxName ≤ name.length then .error .bounds
  else
    match mergeDirent name type entries with
    | some entries => .ok entries
    | none =>
      if capacity.toNat ≤ entries.length then .error .bounds
      else .ok (entries ++ [⟨name, type, size⟩])

/-- The loop of `scdk_initrd_listdir` over the files; the entries found so far
    are returned also with an error. -/
def listdirLoop (path : List UInt8) (queryLen : Nat) (capacity : UInt64) :
    List InitrdFile → List Dirent → Except Err Unit × List Dirent
  | [], entries => (.ok (), entries)
  | f :: files, entries =>
    if pathHasDirPrefix f.path path queryLen = false then
      listdirLoop path queryLen capacity files entries
    else
      let remainder := f.path.drop (if queryLen = 1 then 1 else queryLen + 1)
      if remainder = [] then listdirLoop path queryLen capacity files entries
      else
        let name := remainder.takeWhile (· ≠ slash)
        let isDir := remainder.length ≠ name.length
        match addDirent entries capacity name (if isDir then VfsNode.dir else VfsNode.file)
            (if isDir then 0 else f.size) with
        | .error e => (.error e, entries)
        | .ok entries => listdirLoop path queryLen capacity files entries

/-- The checks of `scdk_initrd_listdir` before it writes: the length of the
    query. -/
def initrdListdirCheck (initrd : Initrd) (path : List UInt8) (capacity : UInt64) :
    Except Err Nat :=
  if initrd.initialized = false then .error .notsup
  else if capacity = 0 ∨ path[0]? ≠ some slash then .error .inval
  else
    match initrdStat initrd path with
    | .error e => .error e
    | .ok (type, _) =>
      if type ≠ VfsNode.dir then .error .notsup else .ok (normalizedQueryLen path)

end Scdk
