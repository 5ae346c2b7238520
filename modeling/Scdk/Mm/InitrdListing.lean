import Scdk.Mm.InitrdQueries
import Mathlib.Data.List.DropRight

/-! # Listings of the initrd

    The table of the initrd has files only; `scdk_initrd_listdir` finds the entries of
    a directory from the paths.  This file says what the listing of a directory is, and
    that the loop over the table computes it.

    * `queriedDir`, `childrenOf`: the paths under a directory, and what stands behind it,
    * `listing`: an entry for each first component,
    * `listing_concat`: the listing with one more path,
    * `addDirent_listing`: what `add_dirent` makes of a listing,
    * `listing_exact`: a listing that is returned is that of the directory,
    * `listdir_lists`: a directory is listed if its names fit into the entries. -/

namespace Scdk

/-! ## Paths under a directory -/

/-- The query without the slashes at its end. -/
def queriedDir (query : List UInt8) : List UInt8 := query.rdropWhile (· = slash)

/-- What stands behind the directory and a slash in a path, if something does. -/
def remainderIn (query path : List UInt8) : Option (List UInt8) :=
  if queriedDir query ++ [slash] <+: path ∧ path ≠ queriedDir query ++ [slash] then
    some (path.drop ((queriedDir query).length + 1))
  else none

/-- These remainders in the order of the table, with the sizes of the files. -/
def childrenOf (files : List InitrdFile) (query : List UInt8) : List (List UInt8 × UInt64) :=
  files.filterMap fun f => (remainderIn query f.path).map fun rest => (rest, f.size)

/-- Their first components. -/
def childNames (children : List (List UInt8 × UInt64)) : List (List UInt8) :=
  children.map fun c => childName c.1

/-- Some path goes on with a slash behind this first component. -/
def Continues (children : List (List UInt8 × UInt64)) (name : List UInt8) : Prop :=
  ∃ c ∈ children, name ++ [slash] <+: c.1

instance (children : List (List UInt8 × UInt64)) (name : List UInt8) :
    Decidable (Continues children name) := inferInstanceAs (Decidable (∃ _ ∈ _, _))

/-- The entry of a name: a directory if some path goes on, or else the first file. -/
def entryFor (children : List (List UInt8 × UInt64)) (name : List UInt8) : Dirent :=
  if Continues children name then ⟨name, VfsNode.dir, 0⟩
  else ⟨name, VfsNode.file, ((children.find? fun c => childName c.1 = name).map Prod.snd).getD 0⟩

/-- The entries, one for each name, in the order in which the names first occur. -/
def listing (children : List (List UInt8 × UInt64)) : List Dirent :=
  (childNames children).eraseDups.map (entryFor children)

section

variable {query : List UInt8} (hroot : query[0]? = some slash)

/-- The number of characters that are kept depends on these only. -/
theorem normalizedLen_append (path more : List UInt8) {n : Nat} (h : n ≤ path.length) :
    normalizedLen (path ++ more) n = normalizedLen path n := by
  induction n with
  | zero => rfl
  | succ n ih =>
    unfold normalizedLen
    rw [ih (by omega), List.getElem?_append_left (by omega)]

include hroot in
/-- `normalized_query_len` and the special case for the root give the directory. -/
theorem dirBase_eq : dirBase query = queriedDir query := by
  unfold queriedDir
  induction query using List.reverseRecOn with
  | nil => cases hroot
  | append_singleton path c ih =>
    rw [List.rdropWhile_concat]
    have hlen : normalizedQueryLen (path ++ [c]) =
        if 1 < path.length + 1 ∧ c = slash then normalizedQueryLen path else path.length + 1 := by
      unfold normalizedQueryLen
      rw [List.length_append, List.length_singleton, normalizedLen, normalizedLen_append _ _ (Nat.le_refl _)]
      simp
    cases path with
    | nil =>
      obtain rfl : c = slash := Option.some.inj hroot
      rfl
    | cons b path =>
      have hpos : 1 < (b :: path).length + 1 := by
        rw [List.length_cons]
        omega
      by_cases hc : c = slash
      · -- one slash less
        rw [if_pos ⟨hpos, hc⟩] at hlen
        rw [if_pos (decide_eq_true hc), ← ih hroot]
        have hle : normalizedQueryLen (b :: path) ≤ (b :: path).length := normalizedLen_le _ _
        unfold dirBase trimPath
        rw [hlen, List.take_append_of_le_length hle]
      · rw [if_neg fun h => hc h.2] at hlen
        rw [if_neg (by simp [hc])]
        unfold dirBase trimPath
        rw [hlen, if_neg (by omega)]
        exact List.take_of_length_le (by simp)

include hroot in
/-- The test of the loop is that for a remainder. -/
theorem remainderIn_iff {path rest : List UInt8} :
    remainderIn query path = some rest ↔ path = dirBase query ++ slash :: rest ∧ rest ≠ [] := by
  rw [dirBase_eq hroot]
  unfold remainderIn
  constructor
  · intro h
    split at h
    · next hin =>
      obtain ⟨⟨more, rfl⟩, hne⟩ := hin
      have hrest : (queriedDir query ++ [slash] ++ more).drop ((queriedDir query).length + 1) = more :=
        List.drop_left' (by simp)
      obtain rfl : more = rest := hrest.symm.trans (Option.some.inj h)
      refine ⟨by simp, ?_⟩
      rintro rfl
      exact hne (List.append_nil _)
    · cases h
  · rintro ⟨rfl, hne⟩
    rw [if_pos ⟨⟨rest, by simp⟩, by simpa using hne⟩]
    congr 1
    rw [List.append_cons]
    exact List.drop_left' (by simp)

end

/-! ## Names -/

section

variable {α : Type} [BEq α] [LawfulBEq α]

/-- An item behind a list that was there before. -/
theorem eraseDups_concat_of_mem {l : List α} {x : α} (h : x ∈ l) :
    (l ++ [x]).eraseDups = l.eraseDups := by
  rw [List.eraseDups_append]
  simp [List.removeAll, h]

/-- And one that is new. -/
theorem eraseDups_concat_of_notMem {l : List α} {x : α} (h : x ∉ l) :
    (l ++ [x]).eraseDups = l.eraseDups ++ [x] := by
  rw [List.eraseDups_append]
  simp [List.removeAll, h, List.eraseDups_cons]

theorem nodup_eraseDups (l : List α) : l.eraseDups.Nodup := by
  induction l using List.reverseRecOn with
  | nil => exact List.nodup_nil
  | append_singleton l x ih =>
    by_cases hmem : x ∈ l
    · rwa [eraseDups_concat_of_mem hmem]
    · rw [eraseDups_concat_of_notMem hmem]
      refine List.nodup_append.mpr ⟨ih, by simp, ?_⟩
      intro y hy z hz heq
      obtain rfl := List.mem_singleton.mp hz
      exact hmem (List.mem_eraseDups.mp (heq ▸ hy))

theorem length_eraseDups_le (l more : List α) :
    l.eraseDups.length ≤ (l ++ more).eraseDups.length := by
  rw [List.eraseDups_append, List.length_append]
  exact Nat.le_add_right _ _

end

theorem childName_of_continues {name rest : List UInt8} (hname : slash ∉ name)
    (h : name ++ [slash] <+: rest) : childName rest = name := ((takeWhile_slash_iff hname).mp h).1

theorem slash_notMem_childNames {children : List (List UInt8 × UInt64)} {name : List UInt8}
    (h : name ∈ childNames children) : slash ∉ name := by
  obtain ⟨c, _, rfl⟩ := List.mem_map.mp h
  exact slash_notMem_takeWhile c.1

@[simp] theorem entryFor_name (children : List (List UInt8 × UInt64)) (name : List UInt8) :
    (entryFor children name).name = name := by
  unfold entryFor
  split <;> rfl

theorem names_listing (children : List (List UInt8 × UInt64)) :
    (listing children).map Dirent.name = (childNames children).eraseDups := by
  unfold listing
  rw [List.map_map]
  conv_rhs => rw [← List.map_id (childNames children).eraseDups]
  apply List.map_congr_left
  intro name _
  exact entryFor_name children name

/-- What `add_dirent` is told of a path. -/
def childType (rest : List UInt8) : UInt64 :=
  if rest.length ≠ (childName rest).length then VfsNode.dir else VfsNode.file

def childSize (c : List UInt8 × UInt64) : UInt64 :=
  if c.1.length ≠ (childName c.1).length then 0 else c.2

section concat

variable {cs : List (List UInt8 × UInt64)} {c : List UInt8 × UInt64} {name : List UInt8}

theorem childNames_concat : childNames (cs ++ [c]) = childNames cs ++ [childName c.1] := by
  simp [childNames]

theorem continues_concat (hname : slash ∉ name) : Continues (cs ++ [c]) name ↔
    Continues cs name ∨ (childName c.1 = name ∧ c.1.length ≠ (childName c.1).length) := by
  unfold Continues
  simp only [List.mem_append, List.mem_singleton, or_and_right, exists_or, exists_eq_left]
  rw [takeWhile_slash_iff hname]
  apply or_congr_right
  constructor
  · rintro ⟨rfl, hlen⟩
    exact ⟨rfl, hlen⟩
  · rintro ⟨rfl, hlen⟩
    exact ⟨rfl, hlen⟩

/-- The first file of a name stays the first. -/
theorem find?_concat (hmem : name ∈ childNames cs) :
    ((cs ++ [c]).find? fun c => childName c.1 = name) = cs.find? fun c => childName c.1 = name := by
  rw [List.find?_append]
  cases hfind : cs.find? fun c => childName c.1 = name with
  | some d => rfl
  | none =>
    obtain ⟨d, hd, heq⟩ := List.mem_map.mp hmem
    have hnot := List.find?_eq_none.mp hfind d hd
    exact absurd (decide_eq_true heq) hnot

/-- The entry of a name that has occurred, with one more path: it becomes a directory
    if the path has that name and goes on. -/
theorem entryFor_concat (hmem : name ∈ childNames cs) :
    entryFor (cs ++ [c]) name = mergedWith (childName c.1) (childType c.1) (entryFor cs name) := by
  have hslash := slash_notMem_childNames hmem
  have hkind : childType c.1 = VfsNode.dir ↔ c.1.length ≠ (childName c.1).length := by
    unfold childType
    split
    · next h => exact ⟨fun _ => h, fun _ => rfl⟩
    · next h => exact ⟨fun heq => absurd heq (by decide), fun hne => absurd hne h⟩
  unfold mergedWith
  rw [entryFor_name]
  by_cases hnew : childName c.1 = name ∧ c.1.length ≠ (childName c.1).length
  · rw [if_pos ⟨hnew.1.symm, hkind.mpr hnew.2⟩]
    unfold entryFor
    rw [if_pos ((continues_concat hslash).mpr (.inr hnew))]
  · rw [if_neg fun h => hnew ⟨h.1.symm, hkind.mp h.2⟩]
    unfold entryFor
    have hsame : Continues (cs ++ [c]) name ↔ Continues cs name := by
      rw [continues_concat hslash]
      exact or_iff_left hnew
    simp only [hsame, find?_concat hmem]

/-- The entry of a name that has not. -/
theorem entryFor_new (hnew : childName c.1 ∉ childNames cs) :
    entryFor (cs ++ [c]) (childName c.1) = ⟨childName c.1, childType c.1, childSize c⟩ := by
  have hslash : slash ∉ childName c.1 := slash_notMem_takeWhile c.1
  have hnone : ¬ Continues cs (childName c.1) := by
    rintro ⟨d, hd, hlead⟩
    exact hnew (List.mem_map.mpr ⟨d, hd, childName_of_continues hslash hlead⟩)
  have hfind : (cs.find? fun d => childName d.1 = childName c.1) = none := by
    rw [List.find?_eq_none]
    intro d hd heq
    exact hnew (List.mem_map.mpr ⟨d, hd, of_decide_eq_true heq⟩)
  unfold entryFor childType childSize
  by_cases hdir : c.1.length ≠ (childName c.1).length
  · rw [if_pos ((continues_concat hslash).mpr (.inr ⟨rfl, hdir⟩)), if_pos hdir, if_pos hdir]
  · have hcontinues : ¬ Continues (cs ++ [c]) (childName c.1) := by
      rw [continues_concat hslash]
      exact not_or.mpr ⟨hnone, fun h => hdir h.2⟩
    rw [if_neg hcontinues, if_neg hdir, if_neg hdir, List.find?_append, hfind]
    simp

/-- **One more path.**  The listing changes as `add_dirent` changes the entries. -/
theorem listing_concat : listing (cs ++ [c]) =
    if childName c.1 ∈ childNames cs then
      (listing cs).map (mergedWith (childName c.1) (childType c.1))
    else listing cs ++ [⟨childName c.1, childType c.1, childSize c⟩] := by
  have hold : (childNames cs).eraseDups.map (entryFor (cs ++ [c])) =
      (listing cs).map (mergedWith (childName c.1) (childType c.1)) := by
    unfold listing
    rw [List.map_map]
    apply List.map_congr_left
    intro name hname
    exact entryFor_concat (List.mem_eraseDups.mp hname)
  by_cases hmem : childName c.1 ∈ childNames cs
  · rw [if_pos hmem, listing, childNames_concat, eraseDups_concat_of_mem hmem, hold]
  · rw [if_neg hmem, listing, childNames_concat, eraseDups_concat_of_notMem hmem, List.map_append,
      hold, List.map_singleton, entryFor_new hmem]
    congr 1
    -- no entry has that name
    conv_rhs => rw [← List.map_id (listing cs)]
    apply List.map_congr_left
    intro d hd
    apply if_neg
    rintro ⟨heq, _⟩
    have hname : d.name ∈ (childNames cs).eraseDups := by
      rw [← names_listing]
      exact List.mem_map_of_mem hd
    exact hmem (heq ▸ List.mem_eraseDups.mp hname)

end concat

/-! ## The loop -/

/-- The loop of `scdk_initrd_listdir`, over what stands behind the directory. -/
def addAll (capacity : UInt64) :
    List (List UInt8 × UInt64) → List Dirent → Except Err Unit × List Dirent
  | [], entries => (.ok (), entries)
  | c :: cs, entries =>
    match addDirent entries capacity (childName c.1) (childType c.1) (childSize c) with
    | .error e => (.error e, entries)
    | .ok entries => addAll capacity cs entries

theorem listdirLoop_eq {query : List UInt8} (hroot : query[0]? = some slash) (capacity : UInt64)
    (files : List InitrdFile) (entries : List Dirent) :
    listdirLoop query (normalizedQueryLen query) capacity files entries =
      addAll capacity (childrenOf files query) entries := by
  induction files generalizing entries with
  | nil => rfl
  | cons f files ih =>
    unfold listdirLoop childrenOf
    -- A file outside the directory is passed over by both.
    cases hrest : remainderIn query f.path with
    | none =>
      have hout : pathHasDirPrefix f.path query (normalizedQueryLen query) = false := by
        rw [← Bool.not_eq_true, pathHasDirPrefix_iff hroot]
        rintro ⟨rest, hpath⟩
        rw [(remainderIn_iff hroot).mpr hpath] at hrest
        cases hrest
      rw [if_pos hout, ih]
      simp [hrest, childrenOf]
    | some rest =>
      obtain ⟨hpath, hsome⟩ := (remainderIn_iff hroot).mp hrest
      have hin : pathHasDirPrefix f.path query (normalizedQueryLen query) = true :=
        (pathHasDirPrefix_iff hroot f.path).mpr ⟨rest, hpath, hsome⟩
      rw [if_neg (by simp [hin]), List.filterMap_cons, hrest]
      simp only [Option.map_some, addAll]
      rw [hpath, drop_dirBase, if_neg hsome]
      show (match addDirent entries capacity (childName rest) (childType rest)
        (childSize (rest, f.size)) with | .error e => _ | .ok entries => _) = _
      cases addDirent entries capacity (childName rest) (childType rest) (childSize (rest, f.size)) with
      | error e => rfl
      | ok entries => exact ih entries

/-- What the entries can hold of a name. -/
def NameFits (name : List UInt8) : Prop := name ≠ [] ∧ name.length < vfsMaxName

instance (name : List UInt8) : Decidable (NameFits name) := inferInstanceAs (Decidable (_ ∧ _))

theorem nodup_listing (cs : List (List UInt8 × UInt64)) : ((listing cs).map Dirent.name).Nodup := by
  rw [names_listing]
  exact nodup_eraseDups _

/-- **`add_dirent`** makes of a listing the one with the path. -/
theorem addDirent_listing {cs : List (List UInt8 × UInt64)} {c : List UInt8 × UInt64}
    {capacity : UInt64} {entries : List Dirent}
    (h : addDirent (listing cs) capacity (childName c.1) (childType c.1) (childSize c) = .ok entries) :
    entries = listing (cs ++ [c]) := by
  obtain ⟨_, ⟨hin, rfl⟩ | ⟨hnew, rfl⟩⟩ := addDirent_cases (nodup_listing cs) h
  · rw [names_listing, List.mem_eraseDups] at hin
    rw [listing_concat, if_pos hin]
  · rw [names_listing, List.mem_eraseDups] at hnew
    rw [listing_concat, if_neg hnew]

/-- It succeeds if the name fits and there is room for all names. -/
theorem addDirent_fits {cs : List (List UInt8 × UInt64)} {c : List UInt8 × UInt64}
    {capacity : UInt64} (hname : NameFits (childName c.1))
    (hroom : (childNames (cs ++ [c])).eraseDups.length ≤ capacity.toNat) :
    addDirent (listing cs) capacity (childName c.1) (childType c.1) (childSize c) =
      .ok (listing (cs ++ [c])) := by
  have hlen : (listing cs).length = (childNames cs).eraseDups.length := List.length_map _
  have hmem : childName c.1 ∈ (listing cs).map Dirent.name ↔ childName c.1 ∈ childNames cs := by
    rw [names_listing, List.mem_eraseDups]
  unfold addDirent
  rw [if_neg hname.1, if_neg (Nat.not_le.mpr hname.2), mergeDirent_eq (nodup_listing cs), listing_concat]
  by_cases hin : childName c.1 ∈ childNames cs
  · rw [if_pos hin, if_pos (hmem.mpr hin)]
  · rw [childNames_concat, eraseDups_concat_of_notMem hin, List.length_append,
      List.length_singleton] at hroom
    rw [if_neg hin, if_neg (mt hmem.mp hin)]
    dsimp only
    rw [if_neg (by omega)]

/-- The whole loop, from the listing of the paths before. -/
theorem addAll_listing {capacity : UInt64} {cs more : List (List UInt8 × UInt64)}
    {entries : List Dirent} (h : addAll capacity more (listing cs) = (.ok (), entries)) :
    entries = listing (cs ++ more) := by
  induction more generalizing cs with
  | nil =>
    obtain ⟨_, rfl⟩ := Prod.mk.inj h
    rw [List.append_nil]
  | cons c more ih =>
    unfold addAll at h
    split at h
    · cases h
    · next entries₁ hadd =>
      rw [addDirent_listing hadd] at h
      rw [ih h, List.append_assoc]
      rfl

/-- All names have fitted when it succeeds. -/
theorem addAll_names {capacity : UInt64} {cs : List (List UInt8 × UInt64)}
    {entries entries' : List Dirent} (h : addAll capacity cs entries = (.ok (), entries')) :
    ∀ name ∈ childNames cs, NameFits name := by
  induction cs generalizing entries with
  | nil =>
    intro name hname
    cases hname
  | cons c cs ih =>
    unfold addAll at h
    split at h
    · cases h
    next entries₁ hadd =>
    -- The checks of `addDirent` are the two parts of `NameFits`.
    have hfits : NameFits (childName c.1) := by
      unfold addDirent at hadd
      split at hadd
      · cases hadd
      next hne =>
      split at hadd
      · cases hadd
      next hlen => exact ⟨hne, Nat.not_le.mp hlen⟩
    intro name hname
    cases hname with
    | head => exact hfits
    | tail _ hname => exact ih h name hname

/-- And it succeeds if all names fit and there is room for them. -/
theorem addAll_fits {capacity : UInt64} {cs more : List (List UInt8 × UInt64)}
    (hnames : ∀ name ∈ childNames more, NameFits name)
    (hroom : (childNames (cs ++ more)).eraseDups.length ≤ capacity.toNat) :
    addAll capacity more (listing cs) = (.ok (), listing (cs ++ more)) := by
  induction more generalizing cs with
  | nil =>
    rw [List.append_nil]
    rfl
  | cons c more ih =>
    rw [List.append_cons] at hroom ⊢
    -- The names so far are among all of them, so there is room for them too.
    have hfirst : (childNames (cs ++ [c])).eraseDups.length ≤ capacity.toNat := by
      refine Nat.le_trans ?_ hroom
      have hsplit : childNames (cs ++ [c] ++ more) = childNames (cs ++ [c]) ++ childNames more :=
        List.map_append
      rw [hsplit]
      exact length_eraseDups_le _ _
    unfold addAll
    rw [addDirent_fits (hnames _ List.mem_cons_self) hfirst]
    exact ih (fun name hname => hnames name (List.mem_cons_of_mem _ hname)) hroom

/-! ## Listings -/

/-- What a query has passed when the loop starts. -/
theorem initrdListdirCheck_ok {initrd : Initrd} {query : List UInt8} {capacity : UInt64}
    {queryLen : Nat} (h : initrdListdirCheck initrd query capacity = .ok queryLen) :
    query[0]? = some slash ∧ queryLen = normalizedQueryLen query := by
  unfold initrdListdirCheck at h
  split at h
  · cases h
  split at h
  · cases h
  next hargs =>
  rw [not_or, not_not] at hargs
  split at h
  · cases h
  split at h
  · cases h
  · exact ⟨hargs.2, (Except.ok.inj h).symm⟩

/-- A listing that is returned is what the loop has made. -/
theorem initrdListdir_ok {initrd : Initrd} {query : List UInt8} {capacity : UInt64}
    {entries : List Dirent} (h : initrdListdir initrd query capacity = .ok entries) :
    addAll capacity (childrenOf initrd.files query) (listing []) = (.ok (), entries) := by
  unfold initrdListdir at h
  split at h
  · cases h
  next queryLen hcheck =>
  obtain ⟨hroot, rfl⟩ := initrdListdirCheck_ok hcheck
  rw [listdirLoop_eq hroot] at h
  split at h
  · cases h
  next entries' hloop =>
  obtain rfl := Except.ok.inj h
  exact hloop

/-- **Exact listings.**  When a listing is returned, its names are the distinct first
    components of the paths under the directory, in the order in which they first
    occur; an entry is a directory of size 0 if some path goes on with a slash behind
    its name, and otherwise a file with the size of the first file of that name. -/
theorem listing_exact {initrd : Initrd} {query : List UInt8} {capacity : UInt64}
    {entries : List Dirent} (h : initrdListdir initrd query capacity = .ok entries) :
    entries.map Dirent.name = (childNames (childrenOf initrd.files query)).eraseDups ∧
    ∀ e ∈ entries,
      (Continues (childrenOf initrd.files query) e.name → e.type = VfsNode.dir ∧ e.size = 0) ∧
      (¬ Continues (childrenOf initrd.files query) e.name → e.type = VfsNode.file ∧
        ∃ c, (childrenOf initrd.files query).find? (fun c => childName c.1 = e.name) = some c ∧
          e.size = c.2) := by
  have hentries : entries = listing (childrenOf initrd.files query) :=
    addAll_listing (initrdListdir_ok h)
  refine ⟨by rw [hentries, names_listing], ?_⟩
  intro e he
  rw [hentries] at he
  obtain ⟨name, hname, rfl⟩ := List.mem_map.mp he
  rw [entryFor_name]
  constructor
  · intro hcontinues
    unfold entryFor
    rw [if_pos hcontinues]
    exact ⟨rfl, rfl⟩
  · intro hlast
    unfold entryFor
    rw [if_neg hlast]
    refine ⟨rfl, ?_⟩
    cases hfind : (childrenOf initrd.files query).find? fun c => childName c.1 = name with
    | some c => exact ⟨c, rfl, rfl⟩
    | none =>
      obtain ⟨c, hc, heq⟩ := List.mem_map.mp (List.mem_eraseDups.mp hname)
      exact absurd (decide_eq_true heq) (List.find?_eq_none.mp hfind c hc)

/-- The files `/a` of one byte, `/b/c` and `/a/d`. -/
def threeFiles : Initrd where
  files := [⟨[slash, 97], [1], 0⟩, ⟨[slash, 98, slash, 99], [], 0⟩, ⟨[slash, 97, slash, 100], [2, 3], 0⟩]
  initialized := true

theorem listing_exact_three :
    initrdListdir threeFiles [slash] 4 = .ok [⟨[97], VfsNode.dir, 0⟩, ⟨[98], VfsNode.dir, 0⟩] ∧
    initrdListdir threeFiles [slash, 98, slash] 4 = .ok [⟨[99], VfsNode.file, 0⟩] ∧
    (childNames (childrenOf threeFiles.files [slash])).eraseDups = [[97], [98]] ∧
    (childNames (childrenOf threeFiles.files [slash, 98, slash])).eraseDups = [[99]] := by
  have hroot : initrdListdir threeFiles [slash] 4 =
      .ok [⟨[97], VfsNode.dir, 0⟩, ⟨[98], VfsNode.dir, 0⟩] := by decide +kernel
  have hdir : initrdListdir threeFiles [slash, 98, slash] 4 = .ok [⟨[99], VfsNode.file, 0⟩] := by
    decide +kernel
  exact ⟨hroot, hdir, (listing_exact hroot).1.symm, (listing_exact hdir).1.symm⟩

/-- **Which directories are listed.**  With a capacity that is not zero and as large as
    the number of its names, a directory is listed when each name has a byte and is
    shorter than the field of an entry, and only then. -/
theorem listdir_lists {initrd : Initrd} {query : List UInt8} {capacity size : UInt64}
    (hinit : initrd.initialized = true)
    (hdir : initrdStat initrd query = .ok (VfsNode.dir, size)) (hcap : capacity ≠ 0)
    (hroom : (childNames (childrenOf initrd.files query)).eraseDups.length ≤ capacity.toNat) :
    (∃ entries, initrdListdir initrd query capacity = .ok entries) ↔
      ∀ name ∈ childNames (childrenOf initrd.files query), NameFits name := by
  constructor
  · -- A listing that came back holds no name that does not fit.
    rintro ⟨entries, hlist⟩
    exact addAll_names (initrdListdir_ok hlist)
  · -- Every name fits, so the loop adds all the children.
    intro hnames
    have hroot : query[0]? = some slash := by
      unfold initrdStat at hdir
      rw [if_neg (by simp [hinit])] at hdir
      by_contra hne
      rw [if_pos hne] at hdir
      cases hdir
    have hcheck : initrdListdirCheck initrd query capacity = .ok (normalizedQueryLen query) := by
      unfold initrdListdirCheck
      rw [if_neg (by simp [hinit]), if_neg (not_or.mpr ⟨hcap, not_not.mpr hroot⟩), hdir]
      rfl
    have hloop : addAll capacity (childrenOf initrd.files query) (listing []) =
        (.ok (), listing (childrenOf initrd.files query)) := addAll_fits hnames hroom
    unfold initrdListdir
    rw [hcheck]
    dsimp only
    rw [listdirLoop_eq hroot]
    change addAll capacity (childrenOf initrd.files query) [] = _ at hloop
    rw [hloop]
    exact ⟨_, rfl⟩

theorem listdir_lists_three : initrdStat threeFiles [slash] = .ok (VfsNode.dir, 0) ∧
    ∃ entries, initrdListdir threeFiles [slash] 2 = .ok entries := by
  have hstat : initrdStat threeFiles [slash] = .ok (VfsNode.dir, 0) := by decide +kernel
  exact ⟨hstat, (listdir_lists rfl hstat (by decide) (by decide +kernel)).mpr (by decide +kernel)⟩

/-- An archive with one file, whose name of 64 bytes leaves no room for the terminator. -/
def longImage : TarImage where
  bytes := encodeArchive [⟨List.replicate 64 97, [], [], 48, [], [], [], [1]⟩] 2
  fits := by decide +kernel

/-- It is accepted, and its root cannot be listed. -/
theorem root_not_listed :
    ¬ ∀ (t : TarImage) (before files : List InitrdFile), parseTarImage t before = (.ok (), files) →
      ∀ (query : List UInt8) (capacity size : UInt64),
        initrdStat ⟨files, true⟩ query = .ok (VfsNode.dir, size) → capacity ≠ 0 →
        (childNames (childrenOf files query)).eraseDups.length ≤ capacity.toNat →
        ∃ entries, initrdListdir ⟨files, true⟩ query capacity = .ok entries := by
  intro hlists
  have hparse : parseTarImage longImage [] =
      (.ok (), [⟨slash :: List.replicate 64 97, [1], 0⟩]) := by decide +kernel
  obtain ⟨entries, hentries⟩ := hlists _ _ _ hparse [slash] 4 0 (by decide +kernel) (by decide)
    (by decide +kernel)
  have hbounds : initrdListdir ⟨[⟨slash :: List.replicate 64 97, [1], 0⟩], true⟩ [slash] 4 =
      .error .bounds := by decide +kernel
  rw [hbounds] at hentries
  cases hentries

end Scdk
