import Scdk.Mm.TarEncode
import Mathlib.Data.List.Basic

/-! # Agreement of the queries of the initrd

    `scdk_initrd_find`, `scdk_initrd_stat` and `scdk_initrd_listdir` read the same
    table of files, but not in the same way: the first takes a path as it is and
    the others drop slashes at its end, and of a file and a directory with the same
    path `stat` reports the file and `listdir` the directory.

    * `recordedSize`, `Below`: what the table says of a path,
    * `initrdFind_size`, `initrdStat_file`, `initrdStat_join`: the answers of the
      first two in these terms,
    * `Listed`: the entries after some of the files; `listdirLoop_listed`,
    * `queries_agree_iff`: exactly when the answers agree. -/

namespace Scdk

/-! ## Paths -/

/-- A path without the slashes at its end. -/
def trimPath (path : List UInt8) : List UInt8 := path.take (normalizedQueryLen path)

/-- The path ends in a slash and is not just that. -/
def TrailingSlash (path : List UInt8) : Prop := 1 < path.length ∧ path.getLast? = some slash

/-- What stands before the slash and the name of an entry of a directory. -/
def dirBase (dir : List UInt8) : List UInt8 :=
  if normalizedQueryLen dir = 1 then [] else trimPath dir

/-- A directory joined with a name. -/
def joinPath (dir name : List UInt8) : List UInt8 := dirBase dir ++ slash :: name

/-- The size of the first file with that path. -/
def recordedSize (files : List InitrdFile) (path : List UInt8) : Option UInt64 :=
  (files.find? fun f => f.path == path).map InitrdFile.size

/-- Some file has a path that goes on behind `path` and a slash. -/
def Below (files : List InitrdFile) (path : List UInt8) : Prop :=
  ∃ f ∈ files, path ++ [slash] <+: f.path

/-- Some file has a path with a name behind `path` and a slash. -/
def NamedBelow (files : List InitrdFile) (path : List UInt8) : Prop :=
  ∃ f ∈ files, path ++ [slash] <+: f.path ∧ path.length + 1 < f.path.length

/-- `scdk_initrd_listdir`: the entries that are returned. -/
def initrdListdir (initrd : Initrd) (dir : List UInt8) (capacity : UInt64) :
    Except Err (List Dirent) :=
  match initrdListdirCheck initrd dir capacity with
  | .error e => .error e
  | .ok queryLen =>
    match listdirLoop dir queryLen capacity initrd.files [] with
    | (.error e, _) => .error e
    | (.ok _, entries) => .ok entries

theorem normalizedLen_le (path : List UInt8) (n : Nat) : normalizedLen path n ≤ n := by
  induction n with
  | zero => exact Nat.le_refl 0
  | succ n ih =>
    unfold normalizedLen
    split
    · omega
    · exact Nat.le_refl _

theorem normalizedLen_pos (path : List UInt8) {n : Nat} (hn : 0 < n) : 0 < normalizedLen path n := by
  induction n with
  | zero => omega
  | succ n ih =>
    unfold normalizedLen
    split
    · exact ih (by omega)
    · omega

theorem length_trimPath (path : List UInt8) : (trimPath path).length = normalizedQueryLen path := by
  have hle := normalizedLen_le path path.length
  unfold trimPath
  rw [List.length_take]
  exact Nat.min_eq_left hle

/-- A path that does not end in a slash is taken as it is. -/
theorem normalizedQueryLen_of_not {path : List UInt8} (h : ¬ TrailingSlash path) :
    normalizedQueryLen path = path.length := by
  unfold normalizedQueryLen
  generalize hlen : path.length = n
  cases n with
  | zero => rfl
  | succ n =>
    unfold normalizedLen
    apply if_neg
    rintro ⟨hlong, hlast⟩
    refine h ⟨by omega, ?_⟩
    rw [List.getLast?_eq_getElem?, hlen]
    exact hlast

theorem trimPath_of_not {path : List UInt8} (h : ¬ TrailingSlash path) : trimPath path = path := by
  unfold trimPath
  rw [normalizedQueryLen_of_not h, List.take_length]

theorem pathEqLen_iff (path query : List UInt8) :
    pathEqLen path query (normalizedQueryLen query) = (path == trimPath query) := by
  rw [Bool.eq_iff_iff, beq_iff_eq]
  unfold pathEqLen
  rw [decide_eq_true_iff]
  constructor
  · rintro ⟨_, heq⟩
    exact heq
  · intro heq
    refine ⟨?_, heq⟩
    rw [heq, length_trimPath]

/-! ## Finding and stat -/

theorem initrdFind_size {initrd : Initrd} (hinit : initrd.initialized = true) (path : List UInt8)
    (s : UInt64) : (∃ f, initrdFind initrd path = .ok f ∧ f.size = s) ↔
      recordedSize initrd.files path = some s := by
  unfold initrdFind recordedSize
  rw [if_neg (by simp [hinit])]
  cases initrd.files.find? fun f => f.path == path with
  | none => simp
  | some f => simp

theorem initrdStat_file {initrd : Initrd} (hinit : initrd.initialized = true) {path : List UInt8}
    (hroot : path[0]? = some slash) (s : UInt64) :
    initrdStat initrd path = .ok (VfsNode.file, s) ↔
      normalizedQueryLen path ≠ 1 ∧ recordedSize initrd.files (trimPath path) = some s := by
  have hkinds : VfsNode.dir ≠ VfsNode.file := by decide
  unfold initrdStat recordedSize
  rw [if_neg (by simp [hinit]), if_neg (by simpa using hroot)]
  simp only [pathEqLen_iff]
  by_cases hone : normalizedQueryLen path = 1
  · simp [hone, hkinds]
  · rw [if_neg hone]
    cases initrd.files.find? fun f => f.path == trimPath path with
    | some f => simp [hone]
    | none =>
      dsimp only
      split <;> simp [hkinds]

/-! ## Files in a directory -/

section

variable {dir : List UInt8} (hroot : dir[0]? = some slash)

include hroot in
theorem normalizedQueryLen_pos : 0 < normalizedQueryLen dir := by
  apply normalizedLen_pos
  by_contra hzero
  rw [List.getElem?_eq_none (by omega)] at hroot
  cases hroot

include hroot in
/-- The path of a file of the directory is the base, a slash and something more. -/
theorem pathHasDirPrefix_iff (path : List UInt8) :
    pathHasDirPrefix path dir (normalizedQueryLen dir) = true ↔
      ∃ rest, path = dirBase dir ++ slash :: rest ∧ rest ≠ [] := by
  unfold pathHasDirPrefix dirBase
  by_cases hone : normalizedQueryLen dir = 1
  · rw [if_pos hone, if_pos ⟨hone, hroot⟩, decide_eq_true_iff]
    cases path with
    | nil => simp
    | cons c rest => simp [List.length_pos_iff]
  · rw [if_neg hone, if_neg (fun h => hone h.1), decide_eq_true_iff]
    have hlen := length_trimPath dir
    have htrim : dir.take (normalizedQueryLen dir) = trimPath dir := rfl
    rw [htrim]
    constructor
    · rintro ⟨hlong, htake, hslash⟩
      refine ⟨path.drop (normalizedQueryLen dir + 1), ?_, ?_⟩
      · have hget := List.getElem_of_getElem? hslash
        obtain ⟨hlt, hget⟩ := hget
        rw [← htake, ← hget, ← List.drop_eq_getElem_cons hlt, List.take_append_drop]
      · exact List.ne_nil_of_length_pos (by rw [List.length_drop]; omega)
    · rintro ⟨rest, rfl, hrest⟩
      have hpos := List.length_pos_iff.mpr hrest
      refine ⟨?_, ?_, ?_⟩
      · rw [List.length_append, List.length_cons, hlen]
        omega
      · exact List.take_left' hlen
      · rw [List.getElem?_append_right (by omega), hlen, Nat.sub_self]
        rfl

/-- The loop finds what stands behind the slash. -/
theorem drop_dirBase (rest : List UInt8) :
    (dirBase dir ++ slash :: rest).drop
      (if normalizedQueryLen dir = 1 then 1 else normalizedQueryLen dir + 1) = rest := by
  unfold dirBase
  by_cases hone : normalizedQueryLen dir = 1
  · rw [if_pos hone, if_pos hone]
    rfl
  · rw [if_neg hone, if_neg hone, List.append_cons]
    exact List.drop_left' (by rw [List.length_append, length_trimPath]; rfl)

end

/-- A name with a slash behind it is what `listdir` cuts off a longer path. -/
theorem takeWhile_slash_iff {name rest : List UInt8} (hname : slash ∉ name) :
    name ++ [slash] <+: rest ↔
      rest.takeWhile (· ≠ slash) = name ∧ rest.length ≠ name.length := by
  have hcut : ∀ more, (name ++ more).takeWhile (· ≠ slash) = name ++ more.takeWhile (· ≠ slash) := by
    intro more
    apply List.takeWhile_append_of_pos
    intro c hc
    exact decide_eq_true fun heq => hname (heq ▸ hc)
  constructor
  · rintro ⟨more, rfl⟩
    rw [List.append_assoc, hcut]
    simp
  · rintro ⟨heq, hlen⟩
    -- what is dropped is not empty, and its first character is the slash
    have hsplit := List.takeWhile_append_dropWhile (p := (· ≠ slash)) (l := rest)
    rw [heq] at hsplit
    cases hdrop : rest.dropWhile (· ≠ slash) with
    | nil =>
      rw [hdrop, List.append_nil] at hsplit
      exact absurd (congrArg List.length hsplit).symm hlen
    | cons c more =>
      have hc : c = slash := by
        have hhead := List.head?_dropWhile_not (· ≠ slash) rest
        rw [hdrop] at hhead
        simpa using hhead
      rw [← hsplit, hdrop, hc]
      exact ⟨more, by simp⟩

/-- The name is all that is left of the path if no slash is. -/
theorem eq_of_takeWhile {name rest : List UInt8} (h : rest.takeWhile (· ≠ slash) = name)
    (hlen : ¬ rest.length ≠ name.length) : rest = name := by
  rw [← h]
  rw [← h] at hlen
  have hlead : rest.takeWhile (· ≠ slash) <+: rest := List.takeWhile_prefix _
  exact (hlead.eq_of_length (by omega)).symm

theorem slash_notMem_takeWhile (rest : List UInt8) : slash ∉ rest.takeWhile (· ≠ slash) := by
  intro hmem
  have := List.mem_takeWhile_imp hmem
  simp at this

/-! ## A further file -/

theorem below_append {files : List InitrdFile} {f : InitrdFile} {path : List UInt8} :
    Below (files ++ [f]) path ↔ Below files path ∨ path ++ [slash] <+: f.path := by
  unfold Below
  simp only [List.mem_append, List.mem_singleton, or_and_right, exists_or, exists_eq_left]

theorem recordedSize_append (files : List InitrdFile) (f : InitrdFile) (path : List UInt8) :
    recordedSize (files ++ [f]) path =
      (recordedSize files path).or (if f.path = path then some f.size else none) := by
  unfold recordedSize
  rw [List.find?_append, Option.map_or]
  by_cases heq : f.path = path <;> simp [heq]

/-- A file whose path is `rest` behind that of the directory. -/
structure Child (dir : List UInt8) (f : InitrdFile) (rest : List UInt8) : Prop where
  path : f.path = dirBase dir ++ slash :: rest
  some : rest ≠ []

/-- The name under which the file is listed. -/
def childName (rest : List UInt8) : List UInt8 := rest.takeWhile (· ≠ slash)

/-- It is listed as a directory. -/
def IsDirChild (rest : List UInt8) : Prop := rest.length ≠ (childName rest).length

theorem Child.below_iff {dir rest name : List UInt8} {f : InitrdFile} (h : Child dir f rest)
    (hname : slash ∉ name) :
    joinPath dir name ++ [slash] <+: f.path ↔ childName rest = name ∧ IsDirChild rest := by
  unfold joinPath
  rw [h.path, List.append_assoc, List.prefix_append_right_inj, List.cons_append,
    List.cons_prefix_cons, takeWhile_slash_iff hname]
  constructor
  · rintro ⟨_, rfl, hlen⟩
    exact ⟨rfl, hlen⟩
  · rintro ⟨rfl, hdir⟩
    exact ⟨rfl, rfl, hdir⟩

theorem Child.at_iff {dir rest name : List UInt8} {f : InitrdFile} (h : Child dir f rest)
    (hname : slash ∉ name) :
    f.path = joinPath dir name ↔ childName rest = name ∧ ¬ IsDirChild rest := by
  unfold joinPath
  rw [h.path, List.append_cancel_left_eq, List.cons.injEq]
  constructor
  · rintro ⟨_, rfl⟩
    have hall : childName rest = rest := by
      apply List.takeWhile_eq_self_iff.mpr
      intro c hc
      exact decide_eq_true fun heq => hname (heq ▸ hc)
    refine ⟨hall, ?_⟩
    unfold IsDirChild
    rw [hall]
    exact fun hne => hne rfl
  · rintro ⟨rfl, hfile⟩
    exact ⟨rfl, eq_of_takeWhile rfl hfile⟩

/-- A file that is not in the directory has the path of none of its entries. -/
theorem not_child {dir name : List UInt8} {f : InitrdFile} (h : ¬ ∃ rest, Child dir f rest) :
    ¬ (joinPath dir name ++ [slash] <+: f.path) ∧ (name ≠ [] → f.path ≠ joinPath dir name) := by
  constructor
  · rintro ⟨more, heq⟩
    refine h ⟨name ++ slash :: more, ?_, by simp⟩
    rw [← heq]
    simp [joinPath]
  · intro hne heq
    exact h ⟨name, heq, hne⟩

/-! ## Listing -/

/-- What an entry says is so for the files. -/
structure EntryOk (files : List InitrdFile) (dir : List UInt8) (e : Dirent) : Prop where
  name : slash ∉ e.name
  named : e.name ≠ []
  kind : (Below files (joinPath dir e.name) ∧ e.type = VfsNode.dir ∧ e.size = 0) ∨
    (¬ Below files (joinPath dir e.name) ∧ e.type = VfsNode.file ∧
      recordedSize files (joinPath dir e.name) = some e.size)

/-- The entries after these files. -/
structure Listed (dir : List UInt8) (files : List InitrdFile) (entries : List Dirent) : Prop where
  names : (entries.map Dirent.name).Nodup
  entry : ∀ e ∈ entries, EntryOk files dir e
  unlisted : ∀ name, slash ∉ name → name ∉ entries.map Dirent.name →
    ¬ Below files (joinPath dir name) ∧ (name ≠ [] → recordedSize files (joinPath dir name) = none)

/-- A file with another name changes nothing for an entry. -/
theorem EntryOk.other {files : List InitrdFile} {dir : List UInt8} {e : Dirent} {f : InitrdFile}
    (h : EntryOk files dir e) (hbelow : ¬ (joinPath dir e.name ++ [slash] <+: f.path))
    (hat : f.path ≠ joinPath dir e.name) : EntryOk (files ++ [f]) dir e := by
  refine ⟨h.name, h.named, ?_⟩
  rw [below_append, recordedSize_append, if_neg hat, Option.or_none]
  rcases h.kind with ⟨hdir, hrest⟩ | ⟨hfile, hrest⟩
  · exact .inl ⟨.inl hdir, hrest⟩
  · exact .inr ⟨not_or.mpr ⟨hfile, hbelow⟩, hrest⟩

/-- `add_dirent` on an entry of the list. -/
def mergedWith (name : List UInt8) (type : UInt64) (d : Dirent) : Dirent :=
  if d.name = name ∧ type = VfsNode.dir then { d with type := VfsNode.dir, size := 0 } else d

@[simp] theorem mergedWith_name (name : List UInt8) (type : UInt64) (d : Dirent) :
    (mergedWith name type d).name = d.name := by
  unfold mergedWith
  split <;> rfl

theorem mergeDirent_eq {name : List UInt8} {type : UInt64} {entries : List Dirent}
    (hnodup : (entries.map Dirent.name).Nodup) : mergeDirent name type entries =
      if name ∈ entries.map Dirent.name then some (entries.map (mergedWith name type)) else none := by
  induction entries with
  | nil => rfl
  | cons d ds ih =>
    rw [List.map_cons, List.nodup_cons] at hnodup
    unfold mergeDirent
    by_cases hd : d.name = name
    · -- the first entry of that name is the only one
      have hrest : ds.map (mergedWith name type) = ds := by
        conv_rhs => rw [← List.map_id ds]
        apply List.map_congr_left
        intro d' hd'
        apply if_neg
        rintro ⟨heq, _⟩
        exact hnodup.1 (hd.trans heq.symm ▸ List.mem_map_of_mem hd')
      have hin : name ∈ (d :: ds).map Dirent.name := by simp [hd]
      rw [if_pos hd, if_pos hin, List.map_cons, hrest]
      simp [mergedWith, hd]
    · have hhead : mergedWith name type d = d := if_neg (fun h => hd h.1)
      have hmem : name ∈ (d :: ds).map Dirent.name ↔ name ∈ ds.map Dirent.name := by
        rw [List.map_cons, List.mem_cons]
        exact or_iff_right (Ne.symm hd)
      rw [if_neg hd, ih hnodup.2]
      by_cases hin : name ∈ ds.map Dirent.name
      · rw [if_pos hin, if_pos (hmem.mpr hin), Option.map_some, List.map_cons, hhead]
      · rw [if_neg hin, if_neg (mt hmem.mp hin), Option.map_none]

/-- The cases of `add_dirent` when it succeeds. -/
theorem addDirent_cases {entries entries' : List Dirent} {capacity type size : UInt64}
    {name : List UInt8} (hnodup : (entries.map Dirent.name).Nodup)
    (h : addDirent entries capacity name type size = .ok entries') :
    name ≠ [] ∧ ((name ∈ entries.map Dirent.name ∧ entries' = entries.map (mergedWith name type)) ∨
      (name ∉ entries.map Dirent.name ∧ entries' = entries ++ [⟨name, type, size⟩])) := by
  unfold addDirent at h
  rw [mergeDirent_eq hnodup] at h
  split at h
  · cases h
  next hne =>
  split at h
  · cases h
  refine ⟨hne, ?_⟩
  by_cases hin : name ∈ entries.map Dirent.name
  · rw [if_pos hin] at h
    exact .inl ⟨hin, (Except.ok.inj h).symm⟩
  · rw [if_neg hin] at h
    dsimp only at h
    split at h
    · cases h
    · exact .inr ⟨hin, (Except.ok.inj h).symm⟩

/-- A file that is not in the directory. -/
theorem Listed.skip {dir : List UInt8} {files : List InitrdFile} {entries : List Dirent}
    {f : InitrdFile} (h : Listed dir files entries) (hf : ¬ ∃ rest, Child dir f rest) :
    Listed dir (files ++ [f]) entries := by
  refine ⟨h.names, ?_, ?_⟩
  · intro e he
    have hok := h.entry e he
    exact hok.other (not_child hf).1 ((not_child hf).2 hok.named)
  · intro name hname hnone
    obtain ⟨hbelow, hat⟩ := h.unlisted name hname hnone
    rw [below_append, recordedSize_append, not_or]
    refine ⟨⟨hbelow, (not_child hf).1⟩, ?_⟩
    intro hne
    rw [hat hne, if_neg ((not_child hf).2 hne)]
    rfl

/-- The entry for the name of a file of the directory, with the file. -/
theorem EntryOk.merged {files : List InitrdFile} {dir rest : List UInt8} {e : Dirent}
    {f : InitrdFile} (h : EntryOk files dir e) (hf : Child dir f rest) {type : UInt64}
    (htype : type = VfsNode.dir ↔ IsDirChild rest) :
    EntryOk (files ++ [f]) dir (mergedWith (childName rest) type e) := by
  by_cases hname : e.name = childName rest
  swap
  · -- an entry of another name
    have hsame : mergedWith (childName rest) type e = e := if_neg (fun heq => hname heq.1)
    rw [hsame]
    apply h.other
    · rw [hf.below_iff h.name]
      exact fun hcut => hname hcut.1.symm
    · rw [Ne, hf.at_iff h.name]
      exact fun hcut => hname hcut.1.symm
  by_cases hdir : IsDirChild rest
  · have hmerged : mergedWith (childName rest) type e =
        { e with type := VfsNode.dir, size := 0 } := if_pos ⟨hname, htype.mpr hdir⟩
    rw [hmerged]
    refine ⟨h.name, h.named, .inl ⟨?_, rfl, rfl⟩⟩
    exact below_append.mpr (.inr ((hf.below_iff h.name).mpr ⟨hname.symm, hdir⟩))
  · have hsame : mergedWith (childName rest) type e = e := if_neg (fun heq => hdir (htype.mp heq.2))
    rw [hsame]
    refine ⟨h.name, h.named, ?_⟩
    rw [below_append, recordedSize_append, hf.below_iff h.name]
    rcases h.kind with ⟨hbelow, hrest⟩ | ⟨hbelow, hkind, hsize⟩
    · exact .inl ⟨.inl hbelow, hrest⟩
    · refine .inr ⟨not_or.mpr ⟨hbelow, fun hcut => hdir hcut.2⟩, hkind, ?_⟩
      rw [hsize]
      rfl

/-- The first entry for the name of a file of the directory. -/
theorem Listed.newEntry {dir rest : List UInt8} {files : List InitrdFile} {entries : List Dirent}
    {f : InitrdFile} (h : Listed dir files entries) (hf : Child dir f rest)
    (hne : childName rest ≠ []) (hnew : childName rest ∉ entries.map Dirent.name) {e : Dirent}
    (hname : e.name = childName rest)
    (hdir : IsDirChild rest → e.type = VfsNode.dir ∧ e.size = 0)
    (hfile : ¬ IsDirChild rest → e.type = VfsNode.file ∧ e.size = f.size) :
    EntryOk (files ++ [f]) dir e := by
  have hslash : slash ∉ e.name := hname ▸ slash_notMem_takeWhile rest
  obtain ⟨hbelow, hat⟩ := h.unlisted e.name hslash (hname ▸ hnew)
  refine ⟨hslash, hname ▸ hne, ?_⟩
  rw [below_append, recordedSize_append, hf.below_iff hslash, hat (hname ▸ hne)]
  by_cases hkind : IsDirChild rest
  · exact .inl ⟨.inr ⟨hname.symm, hkind⟩, hdir hkind⟩
  · obtain ⟨htype, hsize⟩ := hfile hkind
    refine .inr ⟨not_or.mpr ⟨hbelow, fun hcut => hkind hcut.2⟩, htype, ?_⟩
    rw [if_pos ((hf.at_iff hslash).mpr ⟨hname.symm, hkind⟩), hsize]
    rfl

/-- **One file.**  `add_dirent` keeps the entries right. -/
theorem Listed.add {dir rest : List UInt8} {files : List InitrdFile} {entries entries' : List Dirent}
    {f : InitrdFile} {capacity type size : UInt64} (h : Listed dir files entries)
    (hf : Child dir f rest)
    (hdir : IsDirChild rest → type = VfsNode.dir ∧ size = 0)
    (hfile : ¬ IsDirChild rest → type = VfsNode.file ∧ size = f.size)
    (hadd : addDirent entries capacity (childName rest) type size = .ok entries') :
    Listed dir (files ++ [f]) entries' := by
  have htype : type = VfsNode.dir ↔ IsDirChild rest := by
    constructor
    · intro heq
      by_contra hkind
      have hclash : VfsNode.file = VfsNode.dir := (hfile hkind).1.symm.trans heq
      exact absurd hclash (by decide)
    · exact fun hkind => (hdir hkind).1
  obtain ⟨hne, hcases⟩ := addDirent_cases h.names hadd
  -- a name without an entry is not the name of the file
  have hunlisted : ∀ name, slash ∉ name → name ∉ entries.map Dirent.name → name ≠ childName rest →
      ¬ Below (files ++ [f]) (joinPath dir name) ∧
        (name ≠ [] → recordedSize (files ++ [f]) (joinPath dir name) = none) := by
    intro name hname hnone hother
    obtain ⟨hbelow, hat⟩ := h.unlisted name hname hnone
    rw [below_append, recordedSize_append, hf.below_iff hname, not_or]
    refine ⟨⟨hbelow, fun hcut => hother hcut.1.symm⟩, ?_⟩
    intro hnamed
    rw [hat hnamed, if_neg (mt (hf.at_iff hname).mp (fun hcut => hother hcut.1.symm))]
    rfl
  rcases hcases with ⟨hin, rfl⟩ | ⟨hnew, rfl⟩
  · have hnames : (entries.map (mergedWith (childName rest) type)).map Dirent.name =
        entries.map Dirent.name := by simp [Function.comp_def]
    refine ⟨hnames ▸ h.names, ?_, ?_⟩
    · intro e' he'
      obtain ⟨e, he, rfl⟩ := List.mem_map.mp he'
      exact (h.entry e he).merged hf htype
    · intro name hname hnone
      rw [hnames] at hnone
      exact hunlisted name hname hnone (fun heq => hnone (heq ▸ hin))
  · refine ⟨?_, ?_, ?_⟩
    · rw [List.map_append, List.map_singleton]
      refine List.nodup_append.mpr ⟨h.names, by simp, ?_⟩
      intro name hname last hlast heq
      obtain rfl := List.mem_singleton.mp hlast
      obtain rfl : name = childName rest := heq
      exact hnew hname
    · intro e he
      rcases List.mem_append.mp he with hold | hlast
      · have hother : e.name ≠ childName rest := fun heq => hnew (heq ▸ List.mem_map_of_mem hold)
        have hok := h.entry e hold
        apply hok.other
        · rw [hf.below_iff hok.name]
          exact fun hcut => hother hcut.1.symm
        · rw [Ne, hf.at_iff hok.name]
          exact fun hcut => hother hcut.1.symm
      · obtain rfl := List.mem_singleton.mp hlast
        exact h.newEntry hf hne hnew rfl hdir hfile
    · intro name hname hnone
      rw [List.map_append, List.mem_append, not_or] at hnone
      exact hunlisted name hname hnone.1 (by simpa using hnone.2)

/-- **Listing.**  The loop goes on from the entries for the files before. -/
theorem listdirLoop_listed {dir : List UInt8} {capacity : UInt64} {seen files : List InitrdFile}
    {entries entries' : List Dirent} (hroot : dir[0]? = some slash) (h : Listed dir seen entries)
    (hloop : listdirLoop dir (normalizedQueryLen dir) capacity files entries = (.ok (), entries')) :
    Listed dir (seen ++ files) entries' := by
  -- By induction on the files; those seen before are listed already.
  induction files generalizing seen entries with
  | nil =>
    obtain ⟨_, rfl⟩ := Prod.mk.inj hloop
    rwa [List.append_nil]
  | cons f files ih =>
    rw [List.append_cons]
    unfold listdirLoop at hloop
    split at hloop
    · next hnot =>
      have hout : ¬ ∃ rest, Child dir f rest := by
        rintro ⟨rest, hchild⟩
        have hin := (pathHasDirPrefix_iff hroot f.path).mpr ⟨rest, hchild.path, hchild.some⟩
        rw [hin] at hnot
        cases hnot
      exact ih (h.skip hout) hloop
    · next hin =>
      rw [Bool.not_eq_false] at hin
      obtain ⟨rest, hpath, hsome⟩ := (pathHasDirPrefix_iff hroot f.path).mp hin
      rw [hpath, drop_dirBase, if_neg hsome] at hloop
      dsimp only at hloop
      split at hloop
      · cases hloop
      next entries₁ hadd =>
      refine ih (h.add ⟨hpath, hsome⟩ ?_ ?_ hadd) hloop
      · intro hkind
        exact ⟨if_pos hkind, if_pos hkind⟩
      · intro hkind
        exact ⟨if_neg hkind, if_neg hkind⟩

/-! ## Stat of an entry -/

section

variable {dir name : List UInt8} (hroot : dir[0]? = some slash) (hname : slash ∉ name)
  (hnamed : name ≠ [])

include hname hnamed in
theorem joinPath_noTrailing : ¬ TrailingSlash (joinPath dir name) := by
  rintro ⟨_, hlast⟩
  obtain ⟨c, hc⟩ := Option.ne_none_iff_exists'.mp (mt List.getLast?_eq_none_iff.mp hnamed)
  have hend : (joinPath dir name).getLast? = some c := by
    unfold joinPath
    rw [List.getLast?_append, List.getLast?_cons, hc]
    rfl
  rw [hend] at hlast
  obtain rfl := Option.some.inj hlast
  exact hname (List.mem_of_getLast? hc)

include hroot in
theorem joinPath_root : (joinPath dir name)[0]? = some slash := by
  unfold joinPath dirBase
  by_cases hone : normalizedQueryLen dir = 1
  · rw [if_pos hone]
    rfl
  · have hpos := normalizedQueryLen_pos hroot
    have hlen := length_trimPath dir
    rw [if_neg hone, List.getElem?_append_left (by omega)]
    unfold trimPath
    rw [List.getElem?_take, if_pos hpos]
    exact hroot

/-- `path_has_dir_prefix` for a query that does not end in a slash. -/
theorem pathHasDirPrefix_noTrailing {path query : List UInt8} (hquery : query.length ≠ 1) :
    pathHasDirPrefix path query query.length = true ↔
      query ++ [slash] <+: path ∧ query.length + 1 < path.length := by
  unfold pathHasDirPrefix
  rw [if_neg (fun h => hquery h.1), decide_eq_true_iff, List.take_length]
  constructor
  · rintro ⟨hlong, htake, hslash⟩
    refine ⟨?_, hlong⟩
    obtain ⟨hlt, hget⟩ := List.getElem_of_getElem? hslash
    refine ⟨path.drop (query.length + 1), ?_⟩
    calc query ++ [slash] ++ path.drop (query.length + 1)
        = path.take query.length ++ path.drop query.length := by
          rw [List.append_assoc, List.singleton_append, ← hget, ← List.drop_eq_getElem_cons hlt, htake]
      _ = path := List.take_append_drop _ _
  · rintro ⟨⟨more, rfl⟩, hlong⟩
    exact ⟨hlong, by simp, by simp⟩

include hroot hname hnamed in
/-- The answer of `stat` for an entry of a directory. -/
theorem initrdStat_join {initrd : Initrd} (hinit : initrd.initialized = true) (type size : UInt64) :
    initrdStat initrd (joinPath dir name) = .ok (type, size) ↔
      (recordedSize initrd.files (joinPath dir name) = some size ∧ type = VfsNode.file) ∨
      (recordedSize initrd.files (joinPath dir name) = none ∧
        NamedBelow initrd.files (joinPath dir name) ∧ type = VfsNode.dir ∧ size = 0) := by
  have htrail : ¬ TrailingSlash (joinPath dir name) := joinPath_noTrailing hname hnamed
  have hquery := normalizedQueryLen_of_not htrail
  have hlong : (joinPath dir name).length ≠ 1 := by
    have hpos := List.length_pos_iff.mpr hnamed
    unfold joinPath
    rw [List.length_append, List.length_cons]
    omega
  unfold initrdStat recordedSize NamedBelow
  rw [if_neg (by simp [hinit]), if_neg (by simpa using joinPath_root hroot)]
  simp only [pathEqLen_iff]
  rw [trimPath_of_not htrail, hquery, if_neg hlong]
  -- A file of this path is found first; then one below it makes it a directory.
  cases initrd.files.find? fun f => f.path == joinPath dir name with
  | some f =>
    simp only [Except.ok.injEq, Prod.mk.injEq, Option.map_some, Option.some.injEq, reduceCtorEq,
      false_and, or_false]
    exact ⟨fun h => ⟨h.2, h.1.symm⟩, fun h => ⟨h.2.symm, h.1⟩⟩
  | none =>
    dsimp only
    cases hfind : initrd.files.find? fun f =>
        pathHasDirPrefix f.path (joinPath dir name) (joinPath dir name).length with
    | some f =>
      have hmem := List.mem_of_find?_eq_some hfind
      have hlead : pathHasDirPrefix f.path (joinPath dir name) (joinPath dir name).length = true := by
        simpa using List.find?_some hfind
      have hbelow := (pathHasDirPrefix_noTrailing hlong).mp hlead
      simp only [Except.ok.injEq, Prod.mk.injEq, Option.map_none, reduceCtorEq, false_and, false_or,
        true_and]
      constructor
      · rintro ⟨rfl, rfl⟩
        exact ⟨⟨f, hmem, hbelow⟩, rfl, rfl⟩
      · rintro ⟨_, rfl, rfl⟩
        exact ⟨rfl, rfl⟩
    | none =>
      simp only [reduceCtorEq, Option.map_none, false_and, false_or, true_and, false_iff, not_and]
      rintro ⟨f, hmem, hbelow⟩
      have hnot := List.find?_eq_none.mp hfind f hmem
      exact absurd ((pathHasDirPrefix_noTrailing hlong).mpr hbelow) hnot

end

/-! ## Agreement -/

/-- Where the path ends in a slash, the table has the same size, or nothing, under
    the path as it is and without the slashes at its end. -/
def SameSpelling (files : List InitrdFile) (path : List UInt8) : Prop :=
  TrailingSlash path → recordedSize files path = recordedSize files (trimPath path)

/-- Where paths of the table go on behind a name in the directory and a slash, no file
    has that name, and one of these paths does not end at the slash. -/
def OneKind (files : List InitrdFile) (dir : List UInt8) : Prop :=
  ∀ name, slash ∉ name → Below files (joinPath dir name) →
    recordedSize files (joinPath dir name) = none ∧ NamedBelow files (joinPath dir name)

theorem recordedSize_root {t : TarImage} {before files : List InitrdFile}
    (h : parseTarImage t before = (.ok (), files)) {path : List UInt8} (hlen : path.length = 1) :
    recordedSize files path = none := by
  unfold recordedSize
  rw [Option.map_eq_none_iff, List.find?_eq_none]
  intro f hf heq
  obtain ⟨offset, hstored⟩ := parseTarImage_stored h f hf
  have hlong := normalizeTarPath_long hstored.path
  rw [beq_iff_eq.mp heq] at hlong
  omega

theorem find_stat_iff {t : TarImage} {before files : List InitrdFile}
    (h : parseTarImage t before = (.ok (), files)) {path : List UInt8}
    (hroot : path[0]? = some slash) :
    (∀ s, initrdStat ⟨files, true⟩ path = .ok (VfsNode.file, s) ↔
      ∃ f, initrdFind ⟨files, true⟩ path = .ok f ∧ f.size = s) ↔ SameSpelling files path := by
  have hstat : ∀ s, initrdStat ⟨files, true⟩ path = .ok (VfsNode.file, s) ↔
      recordedSize files (trimPath path) = some s := by
    intro s
    rw [initrdStat_file rfl hroot]
    constructor
    · exact And.right
    · intro hsome
      refine ⟨?_, hsome⟩
      intro hone
      rw [recordedSize_root h (by rw [length_trimPath, hone])] at hsome
      cases hsome
  have hfind := initrdFind_size (rfl : (⟨files, true⟩ : Initrd).initialized = true) path
  simp only [hstat, hfind]
  unfold SameSpelling
  constructor
  · intro hagree _
    exact (Option.ext hagree).symm
  · intro hsame s
    by_cases htrail : TrailingSlash path
    · rw [hsame htrail]
    · rw [trimPath_of_not htrail]

theorem initrdListdir_listed {initrd : Initrd} {dir : List UInt8} {capacity : UInt64}
    {entries : List Dirent} (h : initrdListdir initrd dir capacity = .ok entries) :
    dir[0]? = some slash ∧ Listed dir initrd.files entries := by
  unfold initrdListdir at h
  split at h
  · cases h
  next queryLen hcheck =>
  split at h
  · cases h
  next entries₁ hloop =>
  obtain rfl := Except.ok.inj h
  unfold initrdListdirCheck at hcheck
  split at hcheck
  · cases hcheck
  split at hcheck
  · cases hcheck
  next hguard =>
  split at hcheck
  · cases hcheck
  split at hcheck
  · cases hcheck
  obtain rfl := Except.ok.inj hcheck
  have hroot : dir[0]? = some slash := by
    rw [not_or, not_not] at hguard
    exact hguard.2
  refine ⟨hroot, ?_⟩
  -- The loop starts from no files and an empty listing.
  have hempty : Listed dir [] [] := by
    refine ⟨List.nodup_nil, fun e he => (nomatch he), ?_⟩
    intro name _ _
    refine ⟨?_, fun _ => rfl⟩
    rintro ⟨f, hf, _⟩
    cases hf
  exact listdirLoop_listed hroot hempty hloop

theorem listdir_stat_iff {initrd : Initrd} (hinit : initrd.initialized = true) {dir : List UInt8}
    {capacity : UInt64} {entries : List Dirent}
    (h : initrdListdir initrd dir capacity = .ok entries) :
    (∀ e ∈ entries, initrdStat initrd (joinPath dir e.name) = .ok (e.type, e.size)) ↔
      OneKind initrd.files dir := by
  obtain ⟨hroot, hlisted⟩ := initrdListdir_listed h
  have hkinds : VfsNode.dir ≠ VfsNode.file := by decide
  constructor
  · intro hagree name hname hbelow
    -- the name is listed, since a path goes on behind it
    obtain ⟨e, he, rfl⟩ : ∃ e ∈ entries, e.name = name := by
      by_contra hnone
      refine (hlisted.unlisted name hname ?_).1 hbelow
      intro hmem
      obtain ⟨e, he, heq⟩ := List.mem_map.mp hmem
      exact hnone ⟨e, he, heq⟩
    have hok := hlisted.entry e he
    rcases hok.kind with ⟨_, htype, _⟩ | ⟨hnot, _⟩
    · rcases (initrdStat_join hroot hname hok.named hinit _ _).mp (hagree e he) with hfile | hdir
      · exact absurd (htype.symm.trans hfile.2) hkinds
      · exact ⟨hdir.1, hdir.2.1⟩
    · exact absurd hbelow hnot
  · intro hone e he
    have hok := hlisted.entry e he
    rw [initrdStat_join hroot hok.name hok.named hinit]
    rcases hok.kind with ⟨hbelow, htype, hsize⟩ | ⟨_, htype, hsize⟩
    · obtain ⟨hnone, hnamed⟩ := hone e.name hok.name hbelow
      exact .inr ⟨hnone, hnamed, htype, hsize⟩
    · exact .inl ⟨hsize, htype⟩

/-- **Agreement of the queries.**  For the table of an accepted image, `find` and
    `stat` agree on a path exactly if its two spellings agree, and `stat` agrees with
    all entries of a directory exactly if none of its names is both a file and a
    directory, or a directory only by a slash at the end of a path. -/
theorem queries_agree_iff {t : TarImage} {before files : List InitrdFile}
    (h : parseTarImage t before = (.ok (), files)) :
    (∀ path : List UInt8, path[0]? = some slash →
      ((∀ s, initrdStat ⟨files, true⟩ path = .ok (VfsNode.file, s) ↔
        ∃ f, initrdFind ⟨files, true⟩ path = .ok f ∧ f.size = s) ↔ SameSpelling files path)) ∧
    (∀ dir capacity entries, initrdListdir ⟨files, true⟩ dir capacity = .ok entries →
      ((∀ e ∈ entries, initrdStat ⟨files, true⟩ (joinPath dir e.name) = .ok (e.type, e.size)) ↔
        OneKind files dir)) := by
  constructor
  · intro path hroot
    exact find_stat_iff h hroot
  · intro dir capacity entries hlist
    exact listdir_stat_iff rfl hlist

theorem queries_agree_small :
    parseTarImage smallImage [] = (.ok (), [⟨[slash, 97], [1, 2, 3], 0⟩]) ∧
    (∀ s, initrdStat ⟨[⟨[slash, 97], [1, 2, 3], 0⟩], true⟩ [slash, 97] = .ok (VfsNode.file, s) ↔
      ∃ f, initrdFind ⟨[⟨[slash, 97], [1, 2, 3], 0⟩], true⟩ [slash, 97] = .ok f ∧ f.size = s) ∧
    ∃ e, initrdListdir ⟨[⟨[slash, 97], [1, 2, 3], 0⟩], true⟩ [slash] 8 = .ok [e] ∧
      initrdStat ⟨[⟨[slash, 97], [1, 2, 3], 0⟩], true⟩ (joinPath [slash] e.name) = .ok (e.type, e.size) := by
  have hparse : parseTarImage smallImage [] = (.ok (), [⟨[slash, 97], [1, 2, 3], 0⟩]) := by
    decide +kernel
  obtain ⟨hfind, hlistdir⟩ := queries_agree_iff hparse
  refine ⟨hparse, (hfind [slash, 97] rfl).mpr ?_, ?_⟩
  · rintro ⟨_, hlast⟩
    exact absurd hlast (by decide)
  · have hlist : initrdListdir ⟨[⟨[slash, 97], [1, 2, 3], 0⟩], true⟩ [slash] 8 =
        .ok [⟨[97], VfsNode.file, 3⟩] := by
      decide +kernel
    have hone : OneKind [⟨[slash, 97], [1, 2, 3], 0⟩] [slash] := by
      rintro name _ ⟨f, hf, hprefix⟩
      -- there is one slash only in the path of the file
      obtain rfl := List.mem_singleton.mp hf
      have hcount := hprefix.sublist.count_le slash
      have hpath : List.count slash [slash, 97] = 1 := by decide
      simp [joinPath, hpath] at hcount
      omega
    exact ⟨_, hlist, (hlistdir [slash] 8 _ hlist).mpr hone _ (List.mem_singleton_self _)⟩

/-- The files `a` and `a/b`. -/
def clashImage : TarImage where
  bytes := encodeArchive
    [⟨[97], [], [], 48, [], [], [], [1]⟩, ⟨[97, slash, 98], [], [], 48, [], [], [], []⟩] 2
  fits := by decide +kernel

/-- The file `/a` is there for `stat` also as `/a/`, but not for `find`; and `listdir`
    of the root reports a directory where `stat` reports the file. -/
theorem queries_disagree :
    ¬ (∀ (t : TarImage) (before files : List InitrdFile),
      parseTarImage t before = (.ok (), files) → ∀ path : List UInt8, path[0]? = some slash →
        ∀ s, initrdStat ⟨files, true⟩ path = .ok (VfsNode.file, s) ↔
          ∃ f, initrdFind ⟨files, true⟩ path = .ok f ∧ f.size = s) ∧
    ¬ (∀ (t : TarImage) (before files : List InitrdFile),
      parseTarImage t before = (.ok (), files) → ∀ dir capacity entries,
        initrdListdir ⟨files, true⟩ dir capacity = .ok entries →
          ∀ e ∈ entries, initrdStat ⟨files, true⟩ (joinPath dir e.name) = .ok (e.type, e.size)) := by
  have hparse : parseTarImage clashImage [] =
      (.ok (), [⟨[slash, 97], [1], 0⟩, ⟨[slash, 97, slash, 98], [], 0⟩]) := by decide +kernel
  constructor
  · intro hagree
    obtain ⟨f, hf, _⟩ := (hagree _ _ _ hparse [slash, 97, slash] rfl 1).mp (by decide +kernel)
    have hnone : initrdFind ⟨[⟨[slash, 97], [1], 0⟩, ⟨[slash, 97, slash, 98], [], 0⟩], true⟩
        [slash, 97, slash] = .error .noent := by decide +kernel
    rw [hnone] at hf
    cases hf
  · intro hagree
    have hstat := hagree _ _ _ hparse [slash] 4 [⟨[97], VfsNode.dir, 0⟩] (by decide +kernel)
      ⟨[97], VfsNode.dir, 0⟩ List.mem_cons_self
    exact absurd hstat (by decide +kernel)

end Scdk
