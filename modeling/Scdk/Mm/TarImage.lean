import Scdk.Mm.Initrd
import Mathlib.Data.List.TakeWhile
import Mathlib.Tactic.Set

/-! # The archive of the initrd

    Model of the part of `mm/initrd.c` that reads the tar image which the boot
    loader has put into memory, and fills the file table from it.

    * `TarImage`: the image, and the headers of its blocks,
    * `parseOctal`, `normalizeTarPath`, `parseTarImage`: the functions of the
      source; the offsets are machine words,
    * `StoredAt`: a header of the image describes a file, and where its bytes are,
    * `parseTarImage_stored`: every file of the table is one of the image. -/

namespace Scdk

/-! ## Images -/

/-- `SCDK_TAR_BLOCK_SIZE` -/
def tarBlockSize : UInt64 := 512

/-- `SCDK_INITRD_MAX_FILES` -/
abbrev initrdMaxFiles : Nat := 32

/-- An image in memory.  It starts at a page other than the first, so that the
    offset of the block behind its end does not wrap. -/
structure TarImage where
  bytes : List UInt8
  fits : bytes.length + 4096 ≤ 2 ^ 64

/-- The argument `size`. -/
def TarImage.size (t : TarImage) : UInt64 := UInt64.ofNat t.bytes.length

theorem TarImage.toNat_size (t : TarImage) : t.size.toNat = t.bytes.length := by
  have hfits := t.fits
  exact UInt64.toNat_ofNat_of_lt' (show t.bytes.length < 2 ^ 64 by omega)

/-- Bytes of the image. -/
def TarImage.slice (t : TarImage) (offset length : Nat) : List UInt8 :=
  (t.bytes.drop offset).take length

/-- The fields of `struct scdk_tar_header` that are read. -/
structure TarHeader where
  name : List UInt8
  size : List UInt8
  typeflag : UInt8
  namePrefix : List UInt8
  deriving DecidableEq, Repr

/-- The header in a block. -/
def TarHeader.ofBlock (block : List UInt8) : TarHeader where
  name := block.take 100
  size := (block.drop 124).take 12
  typeflag := (block[156]?).getD 0
  namePrefix := (block.drop 345).take 155

/-- The header at an offset. -/
def TarImage.header (t : TarImage) (offset : Nat) : TarHeader := .ofBlock (t.slice offset 512)

/-- `memory_is_zero` -/
def memoryIsZero (bytes : List UInt8) : Bool := bytes.all (· == 0)

/-! ## Numbers and paths -/

/-- The loop of `parse_octal` over the rest of the field. -/
def parseOctalLoop : List UInt8 → Bool → UInt64 → Except Err UInt64
  | [], sawDigit, value => if sawDigit = true then .ok value else .error .inval
  | c :: cs, sawDigit, value =>
    if c = 0 ∨ c = 32 then (if sawDigit = true then .ok value else .error .inval)
    else if c < 48 ∨ 55 < c then .error .inval
    else parseOctalLoop cs true (value <<< 3 ||| (c - 48).toUInt64)

/-- `parse_octal` -/
def parseOctal (field : List UInt8) : Except Err UInt64 := parseOctalLoop field false 0

/-- `append_path_component`, on a buffer of `initrdMaxPath` bytes. -/
def appendPathComponent (out component : List UInt8) : Except Err (List UInt8) :=
  if cString component = [] then .ok out
  else if initrdMaxPath ≤ out.length + (cString component).length then .error .bounds
  else .ok (out ++ cString component)

/-- The slash between the two components. -/
def appendSlash (out : List UInt8) : Except Err (List UInt8) :=
  if 1 < out.length then
    if initrdMaxPath ≤ out.length + 1 then .error .bounds else .ok (out ++ [slash])
  else .ok out

/-- `normalize_tar_path` -/
def normalizeTarPath (header : TarHeader) : Except Err (List UInt8) := do
  let out ← appendPathComponent [slash] header.namePrefix
  let out ← appendSlash out
  let out ← appendPathComponent out
    (if header.name[0]? = some 46 ∧ header.name[1]? = some slash then header.name.drop 2
      else header.name)
  if out.length ≤ 1 then .error .noent else .ok out

/-- `tar_header_is_file` -/
def tarHeaderIsFile (header : TarHeader) : Prop := header.typeflag = 48 ∨ header.typeflag = 0

instance (header : TarHeader) : Decidable (tarHeaderIsFile header) :=
  inferInstanceAs (Decidable (_ ∨ _))

/-! ## The table -/

/-- `remember_file` -/
def rememberFile (files : List InitrdFile) (path data : List UInt8) :
    Except Err Unit × List InitrdFile :=
  if initrdMaxFiles ≤ files.length then (.error .nomem, files)
  else (.ok (), files ++ [⟨path, data, 0⟩])

/-- The size of a file rounded up to blocks. -/
def paddedSize (fileSize : UInt64) : UInt64 := (fileSize + tarBlockSize - 1) &&& ~~~(tarBlockSize - 1)

/-- The part of the loop of `parse_tar_image` for a header of a file. -/
def parseTarFile (t : TarImage) (offset : Nat) (fileSize : UInt64) (files : List InitrdFile) :
    Except Err Unit × List InitrdFile :=
  if tarHeaderIsFile (t.header offset) then
    match normalizeTarPath (t.header offset) with
    | .error e => (.error e, files)
    | .ok path => rememberFile files path (t.slice (offset + 512) fileSize.toNat)
  else (.ok (), files)

/-- The loop of `parse_tar_image`, for at most so many rounds.  A round is at least
    one block long. -/
def parseTarLoop (t : TarImage) : Nat → UInt64 → List InitrdFile → Except Err Unit × List InitrdFile
  | 0, _, files => (.ok (), files)
  | rounds + 1, offset, files =>
    if offset + tarBlockSize ≤ t.size then
      if memoryIsZero (t.slice offset.toNat 512) = true then (.ok (), files)
      else
        match parseOctal (t.header offset.toNat).size with
        | .error e => (.error e, files)
        | .ok fileSize =>
          let dataOffset := offset + tarBlockSize
          if t.size < dataOffset ∨ t.size - dataOffset < paddedSize fileSize then
            (.error .bounds, files)
          else
            match parseTarFile t offset.toNat fileSize files with
            | (.error e, files) => (.error e, files)
            | (.ok _, files) => parseTarLoop t rounds (dataOffset + paddedSize fileSize) files
    else (.ok (), files)

/-- `parse_tar_image`: the status and the file table, which was `files` before. -/
def parseTarImage (t : TarImage) (files : List InitrdFile) : Except Err Unit × List InitrdFile :=
  if t.size < tarBlockSize then (.error .inval, files)
  else
    match parseTarLoop t (t.bytes.length / 512 + 1) 0 [] with
    | (.error e, files) => (.error e, files)
    | (.ok _, files) => if files = [] then (.error .noent, files) else (.ok (), files)

/-- `scdk_initrd_init_from_limine`, for the module that was found. -/
def initrdInitFromLimine (initrd : Initrd) (t : TarImage) : Except Err Unit × Initrd :=
  if t.size = 0 then (.error .noent, initrd)
  else
    match parseTarImage t initrd.files with
    | (.error e, files) => (.error e, { initrd with files := files })
    | (.ok _, files) => (.ok (), ⟨files, true⟩)

/-! ## Numbers -/

theorem toNat_octalDigit {c : UInt8} (hlo : ¬ c < 48) (hhi : ¬ 55 < c) :
    (c - 48).toUInt64.toNat < 8 := by
  rw [UInt8.lt_iff_toNat_lt] at hlo hhi
  have h48 : (48 : UInt8).toNat = 48 := rfl
  have h55 : (55 : UInt8).toNat = 55 := rfl
  rw [UInt8.toNat_toUInt64, UInt8.toNat_sub_of_le _ _ (by rw [UInt8.le_iff_toNat_le]; omega)]
  omega

/-- A further digit behind `n` others. -/
theorem toNat_octalShift {value d : UInt64} {n : Nat} (hn : n < 20) (hvalue : value.toNat < 8 ^ n)
    (hd : d.toNat < 8) : (value <<< 3 ||| d).toNat = 8 * value.toNat + d.toNat := by
  have hpow : 8 ^ n ≤ 2 ^ 57 := by
    calc 8 ^ n ≤ 8 ^ 19 := Nat.pow_le_pow_right (by decide) (by omega)
      _ = 2 ^ 57 := by decide
  have hshift : (value <<< 3).toNat = 2 ^ 3 * value.toNat := by
    rw [UInt64.toNat_shiftLeft, Nat.shiftLeft_eq]
    change value.toNat * 2 ^ 3 % 2 ^ 64 = _
    rw [Nat.mod_eq_of_lt (by omega), Nat.mul_comm]
  rw [UInt64.toNat_or, hshift, ← Nat.two_pow_add_eq_or_of_lt hd]

theorem toNat_octalNext {value d : UInt64} {n : Nat} (hn : n < 20) (hvalue : value.toNat < 8 ^ n)
    (hd : d.toNat < 8) : (value <<< 3 ||| d).toNat < 8 ^ (n + 1) := by
  rw [toNat_octalShift hn hvalue hd, Nat.pow_succ]
  omega

/-- Where the number ends, it is what was read so far. -/
theorem octalEnd_lt {sawDigit : Bool} {value result : UInt64} {n m : Nat} (hvalue : value.toNat < 8 ^ n)
    (hnm : n ≤ m)
    (h : (if sawDigit = true then .ok value else .error .inval : Except Err UInt64) = .ok result) :
    result.toNat < 8 ^ m := by
  split at h
  · obtain rfl := Except.ok.inj h
    calc value.toNat < 8 ^ n := hvalue
      _ ≤ 8 ^ m := Nat.pow_le_pow_right (by decide) hnm
  · cases h

theorem parseOctalLoop_lt {field : List UInt8} {sawDigit : Bool} {value result : UInt64} {n m : Nat}
    (hlen : n + field.length ≤ m) (hm : m ≤ 20) (hvalue : value.toNat < 8 ^ n)
    (h : parseOctalLoop field sawDigit value = .ok result) : result.toNat < 8 ^ m := by
  induction field generalizing sawDigit value n with
  | nil => exact octalEnd_lt hvalue (by simpa using hlen) h
  | cons c cs ih =>
    rw [List.length_cons] at hlen
    unfold parseOctalLoop at h
    split at h
    · exact octalEnd_lt hvalue (by omega) h
    split at h
    · cases h
    · next hdigit =>
      rw [not_or] at hdigit
      have hnext := toNat_octalNext (by omega) hvalue (toNat_octalDigit hdigit.1 hdigit.2)
      exact ih (n := n + 1) (by omega) hnext h

/-- A size of a header has at most 36 bits. -/
theorem parseOctal_lt {field : List UInt8} {result : UInt64} (hlen : field.length ≤ 12)
    (h : parseOctal field = .ok result) : result.toNat < 2 ^ 36 := by
  have hlt := parseOctalLoop_lt (n := 0) (m := 12) (by simpa using hlen) (by decide) (by decide) h
  exact hlt

theorem header_size_length (t : TarImage) (offset : Nat) : (t.header offset).size.length ≤ 12 :=
  List.length_take_le _ _

/-- The first multiple of the block size that is not above. -/
theorem toNat_blockOf (x : UInt64) : (x &&& ~~~511).toNat = x.toNat / 512 * 512 := by
  have hnot : (~~~(511 : UInt64)).toNat = 0xfffffffffffffe00 := by decide
  have hlow : (x.toNat &&& 0xfffffffffffffe00) % 2 ^ 9 = 0 := by
    rw [Nat.and_mod_two_pow]
    simp
  have hhigh : (x.toNat &&& 0xfffffffffffffe00) / 2 ^ 9 = x.toNat / 2 ^ 9 % 2 ^ 55 := by
    rw [Nat.and_div_two_pow]
    exact Nat.and_two_pow_sub_one_eq_mod (x.toNat / 2 ^ 9) 55
  have hlt := x.toNat_lt
  rw [UInt64.toNat_and, hnot]
  omega

/-- Rounding up to blocks does not wrap. -/
theorem toNat_paddedSize {fileSize : UInt64} (h : fileSize.toNat < 2 ^ 36) :
    (paddedSize fileSize).toNat = (fileSize.toNat + 511) / 512 * 512 := by
  have hadd : (fileSize + tarBlockSize - 1).toNat = fileSize.toNat + 511 := by
    have hassoc : fileSize + tarBlockSize - 1 = fileSize + 511 := by
      rw [UInt64.sub_eq_add_neg, UInt64.add_assoc]
      rfl
    rw [hassoc, UInt64.toNat_add]
    change (fileSize.toNat + 511) % 2 ^ 64 = _
    omega
  have hmask : tarBlockSize - 1 = 511 := rfl
  unfold paddedSize
  rw [hmask, toNat_blockOf, hadd]

/-! ## Paths -/

theorem zero_notMem_cString (bytes : List UInt8) : (0 : UInt8) ∉ cString bytes := by
  intro hmem
  have := List.mem_takeWhile_imp hmem
  simp at this

/-- A path in the buffer of `normalize_tar_path`. -/
structure PathOk (path : List UInt8) : Prop where
  root : path[0]? = some slash
  text : (0 : UInt8) ∉ path
  short : path.length < initrdMaxPath

theorem PathOk.append {out : List UInt8} (h : PathOk out) {more : List UInt8}
    (htext : (0 : UInt8) ∉ more) (hshort : out.length + more.length < initrdMaxPath) :
    PathOk (out ++ more) := by
  have hpos : 0 < out.length := by
    have hroot := h.root
    by_contra hzero
    rw [List.getElem?_eq_none (by omega)] at hroot
    cases hroot
  constructor
  · rw [List.getElem?_append_left hpos]
    exact h.root
  · rw [List.mem_append, not_or]
    exact ⟨h.text, htext⟩
  · rw [List.length_append]
    exact hshort

theorem appendPathComponent_ok {out component out' : List UInt8} (h : PathOk out)
    (heq : appendPathComponent out component = .ok out') : PathOk out' := by
  unfold appendPathComponent at heq
  split at heq
  · obtain rfl := Except.ok.inj heq
    exact h
  split at heq
  · cases heq
  · obtain rfl := Except.ok.inj heq
    exact h.append (zero_notMem_cString component) (by omega)

theorem except_bind_ok {ε α β : Type} {x : Except ε α} {f : α → Except ε β} {b : β}
    (h : (x >>= f) = .ok b) : ∃ a, x = .ok a ∧ f a = .ok b := by
  cases x with
  | error e => cases h
  | ok a => exact ⟨a, rfl, h⟩

theorem normalizeTarPath_ok {header : TarHeader} {path : List UInt8}
    (h : normalizeTarPath header = .ok path) : PathOk path := by
  unfold normalizeTarPath at h
  obtain ⟨out, hfirst, h⟩ := except_bind_ok h
  obtain ⟨out', hslash, h⟩ := except_bind_ok h
  obtain ⟨out'', hname, h⟩ := except_bind_ok h
  have hroot : PathOk [slash] := ⟨rfl, by decide, by decide⟩
  have hout := appendPathComponent_ok hroot hfirst
  have hout' : PathOk out' := by
    unfold appendSlash at hslash
    split at hslash
    · split at hslash
      · cases hslash
      · obtain rfl := Except.ok.inj hslash
        exact hout.append (by decide) (by simpa using by omega)
    · obtain rfl := Except.ok.inj hslash
      exact hout
  split at h
  · cases h
  · obtain rfl := Except.ok.inj h
    exact appendPathComponent_ok hout' hname

/-- A path that was accepted is not the root. -/
theorem normalizeTarPath_long {header : TarHeader} {path : List UInt8}
    (h : normalizeTarPath header = .ok path) : 1 < path.length := by
  unfold normalizeTarPath at h
  obtain ⟨_, _, h⟩ := except_bind_ok h
  obtain ⟨_, _, h⟩ := except_bind_ok h
  obtain ⟨_, _, h⟩ := except_bind_ok h
  split at h
  · cases h
  · next hlong =>
    obtain rfl := Except.ok.inj h
    omega

/-! ## The files of an image -/

/-- The header at `offset` is that of the file `f`, whose bytes are in the blocks
    that follow it. -/
structure StoredAt (t : TarImage) (offset : Nat) (f : InitrdFile) : Prop where
  file : tarHeaderIsFile (t.header offset)
  path : normalizeTarPath (t.header offset) = .ok f.path
  size : parseOctal (t.header offset).size = .ok f.size
  data : f.data = t.slice (offset + 512) f.size.toNat
  inside : offset + 512 + f.size.toNat ≤ t.bytes.length

theorem parseTarFile_stored {t : TarImage} {offset : Nat} {fileSize : UInt64}
    {files files' : List InitrdFile} (hsize : parseOctal (t.header offset).size = .ok fileSize)
    (hinside : offset + 512 + fileSize.toNat ≤ t.bytes.length)
    (h : parseTarFile t offset fileSize files = (.ok (), files')) {f : InitrdFile}
    (hf : f ∈ files') : f ∈ files ∨ StoredAt t offset f := by
  unfold parseTarFile at h
  split at h
  · next hfile =>
    split at h
    · cases h
    · next path hpath =>
      unfold rememberFile at h
      split at h
      · cases h
      · obtain ⟨_, rfl⟩ := Prod.mk.inj h
        rcases List.mem_append.mp hf with hold | hnew
        · exact .inl hold
        · obtain rfl := List.mem_singleton.mp hnew
          -- The file that was added is the one of this header.
          have hlen : (t.slice (offset + 512) fileSize.toNat).length = fileSize.toNat := by
            unfold TarImage.slice
            rw [List.length_take, List.length_drop]
            omega
          have hsize' : InitrdFile.size ⟨path, t.slice (offset + 512) fileSize.toNat, 0⟩ = fileSize := by
            unfold InitrdFile.size
            rw [hlen, UInt64.ofNat_toNat]
          refine .inr ⟨hfile, hpath, ?_, ?_, ?_⟩
          · rw [hsize']
            exact hsize
          · rw [hsize']
          · rw [hsize']
            exact hinside
  · obtain ⟨_, rfl⟩ := Prod.mk.inj h
    exact .inl hf

/-- What a round of the loop has checked when it goes on. -/
structure RoundOk (t : TarImage) (offset fileSize : UInt64) : Prop where
  size : parseOctal (t.header offset.toNat).size = .ok fileSize
  inside : offset.toNat + 512 + fileSize.toNat ≤ t.bytes.length
  next : (offset + tarBlockSize + paddedSize fileSize).toNat ≤ t.bytes.length
  step : offset.toNat + 512 ≤ (offset + tarBlockSize + paddedSize fileSize).toNat

theorem RoundOk.of_checks {t : TarImage} {offset fileSize : UInt64}
    (hoffset : offset.toNat ≤ t.bytes.length)
    (hsize : parseOctal (t.header offset.toNat).size = .ok fileSize)
    (hbounds : ¬ (t.size < offset + tarBlockSize ∨
      t.size - (offset + tarBlockSize) < paddedSize fileSize)) : RoundOk t offset fileSize := by
  have hfits := t.fits
  have htotal := t.toNat_size
  have hdata : (offset + tarBlockSize).toNat = offset.toNat + 512 := by
    rw [UInt64.toNat_add]
    change (offset.toNat + 512) % 2 ^ 64 = _
    omega
  have hsmall := parseOctal_lt (header_size_length t offset.toNat) hsize
  have hpadded := toNat_paddedSize hsmall
  rw [not_or, UInt64.not_lt, UInt64.not_lt] at hbounds
  have hroom : (paddedSize fileSize).toNat ≤ t.bytes.length - (offset.toNat + 512) := by
    have hle := UInt64.le_iff_toNat_le.mp hbounds.2
    rw [UInt64.toNat_sub_of_le _ _ hbounds.1, htotal, hdata] at hle
    exact hle
  have hinside : offset.toNat + 512 ≤ t.bytes.length := by
    have hle := UInt64.le_iff_toNat_le.mp hbounds.1
    rw [htotal, hdata] at hle
    exact hle
  have hnext : (offset + tarBlockSize + paddedSize fileSize).toNat =
      offset.toNat + 512 + (paddedSize fileSize).toNat := by
    rw [UInt64.toNat_add, hdata]
    omega
  constructor
  · exact hsize
  · omega
  · omega
  · omega

/-- **Files.**  The loop adds files of the image to the table. -/
theorem parseTarLoop_stored {t : TarImage} {rounds : Nat} {offset : UInt64}
    {files files' : List InitrdFile} (hoffset : offset.toNat ≤ t.bytes.length)
    (h : parseTarLoop t rounds offset files = (.ok (), files')) {f : InitrdFile} (hf : f ∈ files') :
    f ∈ files ∨ ∃ o, StoredAt t o f := by
  -- By induction on the rounds; the checks of a round keep the offset inside the image.
  induction rounds generalizing offset files with
  | zero =>
    obtain ⟨_, rfl⟩ := Prod.mk.inj h
    exact .inl hf
  | succ rounds ih =>
    unfold parseTarLoop at h
    split at h
    swap
    · obtain ⟨_, rfl⟩ := Prod.mk.inj h
      exact .inl hf
    split at h
    · obtain ⟨_, rfl⟩ := Prod.mk.inj h
      exact .inl hf
    split at h
    · cases h
    next fileSize hsize =>
    dsimp only at h
    split at h
    · cases h
    next hbounds =>
    have hround := RoundOk.of_checks hoffset hsize hbounds
    split at h
    · cases h
    next hfile =>
    rcases ih hround.next h with hnew | hlater
    · rcases parseTarFile_stored hsize hround.inside hfile hnew with hold | hstored
      · exact .inl hold
      · exact .inr ⟨_, hstored⟩
    · exact .inr hlater

/-- With a round for each block, more rounds change nothing. -/
theorem parseTarLoop_enough {t : TarImage} {rounds more : Nat} {offset : UInt64}
    {files : List InitrdFile} (hoffset : offset.toNat ≤ t.bytes.length)
    (henough : t.bytes.length < offset.toNat + 512 * rounds) (hmore : rounds ≤ more) :
    parseTarLoop t more offset files = parseTarLoop t rounds offset files := by
  induction rounds generalizing more offset files with
  | zero => omega
  | succ rounds ih =>
    obtain ⟨more, rfl⟩ := Nat.exists_eq_add_of_le' (Nat.le_of_add_left_le hmore)
    unfold parseTarLoop
    split
    swap
    · rfl
    split
    · rfl
    split
    · rfl
    next fileSize hsize =>
    dsimp only
    split
    · rfl
    next hbounds =>
    -- A round moves by a block at least, so what is left is enough for the others.
    have hround := RoundOk.of_checks hoffset hsize hbounds
    have hstep := hround.step
    split
    · rfl
    · exact ih hround.next (by omega) (by omega)

/-- Every file of a table that was filled from an image is stored in it. -/
theorem parseTarImage_stored {t : TarImage} {before files : List InitrdFile}
    (h : parseTarImage t before = (.ok (), files)) : ∀ f ∈ files, ∃ offset, StoredAt t offset f := by
  intro f hf
  unfold parseTarImage at h
  split at h
  · cases h
  split at h
  · cases h
  next files' hloop =>
  split at h
  · cases h
  obtain ⟨_, rfl⟩ := Prod.mk.inj h
  rcases parseTarLoop_stored (Nat.zero_le _) hloop hf with hnone | hstored
  · cases hnone
  · exact hstored

theorem initrdInitFromLimine_stored {initrd initrd' : Initrd} {t : TarImage}
    (h : initrdInitFromLimine initrd t = (.ok (), initrd')) :
    initrd'.initialized = true ∧ ∀ f ∈ initrd'.files, ∃ offset, StoredAt t offset f := by
  unfold initrdInitFromLimine at h
  split at h
  · cases h
  split at h
  · cases h
  next files hparse =>
  obtain ⟨_, rfl⟩ := Prod.mk.inj h
  exact ⟨rfl, parseTarImage_stored hparse⟩

end Scdk
