import Scdk.Mm.TarImage

/-! # Reads of the archive

    The functions of `mm/initrd.c` that read the image, byte by byte as the source
    reads them.  A read outside the image stops the run, and so does a loop that has
    not ended after a number of rounds.

    * `Checked`: the outcome of such a run,
    * `memoryIsZeroAt`, `parseOctalAt`, …, `parseTarImageAt`: the functions; a file is
      recorded with the offset of its bytes,
    * `byteAt_slice`, `parseOctalAt_eq`, …: inside the image each of them is the
      function on the bytes of a slice,
    * `parseTarLoopAt_eq`: the loop ends and has recorded files of the image,
    * `parse_reads_inside`: so no image makes the parser read outside it. -/

namespace Scdk

/-! ## Checked reads -/

/-- Why a run has no result: a byte outside the image was read, or a loop has not
    ended. -/
inductive Stuck where
  | outside
  | unfinished
  deriving DecidableEq, Repr

/-- The outcome of a run that reads the image. -/
abbrev Checked := Except Stuck

theorem Checked.ok_bind {α β : Type} (a : α) (f : α → Checked β) : (Except.ok a >>= f) = f a := rfl

/-- A byte of the image. -/
def TarImage.byteAt (t : TarImage) (i : Nat) : Checked UInt8 :=
  match t.bytes[i]? with
  | some byte => .ok byte
  | none => .error .outside

/-! ## The parser at offsets -/

/-- `memory_is_zero`, on the `size` bytes from `i` on. -/
def memoryIsZeroAt (t : TarImage) (i : Nat) : Nat → Checked Bool
  | 0 => pure true
  | size + 1 => do
    let byte ← t.byteAt i
    if byte ≠ 0 then pure false else memoryIsZeroAt t (i + 1) size

/-- The loop of `parse_octal`, with the rest of the field at `i`. -/
def parseOctalAt (t : TarImage) (i : Nat) : Nat → Bool → UInt64 → Checked (Except Err UInt64)
  | 0, sawDigit, value => pure (if sawDigit = true then .ok value else .error .inval)
  | size + 1, sawDigit, value => do
    let c ← t.byteAt i
    if c = 0 ∨ c = 32 then pure (if sawDigit = true then .ok value else .error .inval)
    else if c < 48 ∨ 55 < c then pure (.error .inval)
    else parseOctalAt t (i + 1) size true (value <<< 3 ||| (c - 48).toUInt64)

/-- `bounded_cstr_len` -/
def boundedCstrLenAt (t : TarImage) (i : Nat) : Nat → Checked Nat
  | 0 => pure 0
  | max + 1 => do
    let c ← t.byteAt i
    if c = 0 then pure 0
    else
      let rest ← boundedCstrLenAt t (i + 1) max
      pure (rest + 1)

/-- `memcpy` out of the image. -/
def memcpyAt (t : TarImage) (i : Nat) : Nat → Checked (List UInt8)
  | 0 => pure []
  | size + 1 => do
    let byte ← t.byteAt i
    let rest ← memcpyAt t (i + 1) size
    pure (byte :: rest)

/-- `append_path_component` -/
def appendPathComponentAt (t : TarImage) (out : List UInt8) (i max : Nat) :
    Checked (Except Err (List UInt8)) := do
  let len ← boundedCstrLenAt t i max
  if len = 0 then pure (.ok out)
  else if initrdMaxPath ≤ out.length + len then pure (.error .bounds)
  else
    let component ← memcpyAt t i len
    pure (.ok (out ++ component))

/-- The test for `"./"` in `normalize_tar_path`; the second byte is read only behind a
    dot. -/
def nameHasDotAt (t : TarImage) (offset : Nat) : Checked Bool := do
  let first ← t.byteAt offset
  if first = 46 then
    let second ← t.byteAt (offset + 1)
    pure (second = slash)
  else pure false

/-- The part of `normalize_tar_path` behind the prefix. -/
def appendNameAt (t : TarImage) (offset : Nat) (out : List UInt8) :
    Checked (Except Err (List UInt8)) := do
  let dot ← nameHasDotAt t offset
  let path ← if dot = true then appendPathComponentAt t out (offset + 2) 98
    else appendPathComponentAt t out offset 100
  match path with
  | .error e => pure (.error e)
  | .ok out => if out.length ≤ 1 then pure (.error .noent) else pure (.ok out)

/-- `normalize_tar_path` -/
def normalizeTarPathAt (t : TarImage) (offset : Nat) : Checked (Except Err (List UInt8)) := do
  let path ← appendPathComponentAt t [slash] (offset + 345) 155
  match path >>= appendSlash with
  | .error e => pure (.error e)
  | .ok out => appendNameAt t offset out

/-- `struct scdk_initrd_entry`; `data` is the offset in the image. -/
structure TarEntry where
  path : List UInt8
  data : Nat
  size : UInt64
  deriving DecidableEq, Repr

/-- The part of the loop of `parse_tar_image` for a header of a file. -/
def parseTarFileAt (t : TarImage) (offset : Nat) (fileSize : UInt64) (files : List TarEntry) :
    Checked (Except Err Unit × List TarEntry) := do
  let typeflag ← t.byteAt (offset + 156)
  if typeflag = 48 ∨ typeflag = 0 then
    let path ← normalizeTarPathAt t offset
    match path with
    | .error e => pure (.error e, files)
    | .ok path =>
      if initrdMaxFiles ≤ files.length then pure (.error .nomem, files)
      else pure (.ok (), files ++ [⟨path, offset + 512, fileSize⟩])
  else pure (.ok (), files)

/-- The loop of `parse_tar_image`. -/
def parseTarLoopAt (t : TarImage) :
    Nat → UInt64 → List TarEntry → Checked (Except Err Unit × List TarEntry)
  | 0, _, _ => .error .unfinished
  | rounds + 1, offset, files =>
    if offset + tarBlockSize ≤ t.size then do
      let zero ← memoryIsZeroAt t offset.toNat 512
      if zero = true then pure (.ok (), files)
      else
        let size ← parseOctalAt t (offset.toNat + 124) 12 false 0
        match size with
        | .error e => pure (.error e, files)
        | .ok fileSize =>
          let dataOffset := offset + tarBlockSize
          if t.size < dataOffset ∨ t.size - dataOffset < paddedSize fileSize then
            pure (.error .bounds, files)
          else
            let result ← parseTarFileAt t offset.toNat fileSize files
            match result with
            | (.error e, files) => pure (.error e, files)
            | (.ok _, files) => parseTarLoopAt t rounds (dataOffset + paddedSize fileSize) files
    else pure (.ok (), files)

/-- `parse_tar_image`: the status and the file table, which was `files` before. -/
def parseTarImageAt (t : TarImage) (rounds : Nat) (files : List TarEntry) :
    Checked (Except Err Unit × List TarEntry) :=
  if t.size < tarBlockSize then pure (.error .inval, files)
  else do
    let result ← parseTarLoopAt t rounds 0 []
    match result with
    | (.error e, files) => pure (.error e, files)
    | (.ok _, files) => pure (if files = [] then .error .noent else .ok (), files)

/-! ## Slices -/

section slices

variable {t : TarImage} {i n : Nat}

theorem byteAt_ok (h : i < t.bytes.length) : t.byteAt i = .ok t.bytes[i] := by
  unfold TarImage.byteAt
  rw [List.getElem?_eq_getElem h]

theorem slice_zero (t : TarImage) (i : Nat) : t.slice i 0 = [] := List.take_zero

theorem slice_succ (h : i < t.bytes.length) :
    t.slice i (n + 1) = t.bytes[i] :: t.slice (i + 1) n := by
  unfold TarImage.slice
  rw [List.drop_eq_getElem_cons h, List.take_succ_cons]

/-- A slice of a slice. -/
theorem slice_slice (t : TarImage) (offset : Nat) {i n m : Nat} (h : i + n ≤ m) :
    ((t.slice offset m).drop i).take n = t.slice (offset + i) n := by
  unfold TarImage.slice
  rw [List.drop_take, List.take_take, List.drop_drop, Nat.min_eq_left (by omega)]

theorem memoryIsZeroAt_eq (h : i + n ≤ t.bytes.length) :
    memoryIsZeroAt t i n = .ok (memoryIsZero (t.slice i n)) := by
  induction n generalizing i with
  | zero =>
    rw [slice_zero]
    rfl
  | succ n ih =>
    have hi : i < t.bytes.length := by omega
    rw [memoryIsZeroAt, byteAt_ok hi, slice_succ hi]
    show (if _ then _ else _) = _
    split
    · next hsome => simp [memoryIsZero, hsome, pure, Except.pure]
    · next hzero =>
      rw [ih (by omega)]
      simp [memoryIsZero, not_not.mp hzero]

theorem parseOctalAt_eq (h : i + n ≤ t.bytes.length) (sawDigit : Bool) (value : UInt64) :
    parseOctalAt t i n sawDigit value = .ok (parseOctalLoop (t.slice i n) sawDigit value) := by
  induction n generalizing i sawDigit value with
  | zero =>
    rw [slice_zero]
    rfl
  | succ n ih =>
    have hi : i < t.bytes.length := by omega
    rw [parseOctalAt, byteAt_ok hi, slice_succ hi, parseOctalLoop]
    show (if _ then _ else _) = _
    split
    · rfl
    split
    · rfl
    · exact ih (by omega) _ _

theorem boundedCstrLenAt_eq (h : i + n ≤ t.bytes.length) :
    boundedCstrLenAt t i n = .ok (cString (t.slice i n)).length := by
  induction n generalizing i with
  | zero =>
    rw [slice_zero]
    rfl
  | succ n ih =>
    have hi : i < t.bytes.length := by omega
    rw [boundedCstrLenAt, byteAt_ok hi, slice_succ hi]
    show (if _ then _ else _) = _
    split
    · next hzero => simp [cString, hzero, pure, Except.pure]
    · next hsome =>
      rw [ih (by omega)]
      simp [cString, hsome, pure, Except.pure, bind, Except.bind]

theorem memcpyAt_eq (h : i + n ≤ t.bytes.length) : memcpyAt t i n = .ok (t.slice i n) := by
  induction n generalizing i with
  | zero =>
    rw [slice_zero]
    rfl
  | succ n ih =>
    have hi : i < t.bytes.length := by omega
    rw [memcpyAt, byteAt_ok hi, ih (by omega), slice_succ hi]
    rfl

/-- The text of a field is where the field starts. -/
theorem slice_cString (t : TarImage) (i n : Nat) :
    t.slice i (cString (t.slice i n)).length = cString (t.slice i n) := by
  have hlead : cString (t.slice i n) <+: t.slice i n := List.takeWhile_prefix _
  have hle := hlead.length_le
  have hlen : (t.slice i n).length ≤ n := List.length_take_le _ _
  have htake := List.prefix_iff_eq_take.mp hlead
  rw [eq_comm]
  calc cString (t.slice i n)
      = (t.slice i n).take (cString (t.slice i n)).length := htake
    _ = t.slice i (cString (t.slice i n)).length := by
      unfold TarImage.slice at hle hlen ⊢
      rw [List.take_take, Nat.min_eq_left (by omega)]

theorem appendPathComponentAt_eq (h : i + n ≤ t.bytes.length) (out : List UInt8) :
    appendPathComponentAt t out i n = .ok (appendPathComponent out (t.slice i n)) := by
  have hlen : (cString (t.slice i n)).length ≤ n :=
    (List.takeWhile_prefix _).length_le.trans (List.length_take_le _ _)
  have hempty : (cString (t.slice i n)).length = 0 ↔ cString (t.slice i n) = [] :=
    List.length_eq_zero_iff
  unfold appendPathComponentAt appendPathComponent
  rw [boundedCstrLenAt_eq h]
  show (if _ then _ else _) = _
  simp only [hempty]
  split
  · rfl
  split
  · rfl
  · rw [memcpyAt_eq (by omega), slice_cString]
    rfl

end slices

/-! ## Headers -/

section headers

variable {t : TarImage} {offset : Nat} (h : offset + 512 ≤ t.bytes.length)

theorem header_namePrefix (t : TarImage) (offset : Nat) :
    (t.header offset).namePrefix = t.slice (offset + 345) 155 := slice_slice t offset (by omega)

theorem header_name (t : TarImage) (offset : Nat) : (t.header offset).name = t.slice offset 100 :=
  slice_slice t offset (i := 0) (by omega)

theorem header_size (t : TarImage) (offset : Nat) :
    (t.header offset).size = t.slice (offset + 124) 12 := slice_slice t offset (by omega)

include h

theorem header_typeflag : t.byteAt (offset + 156) = .ok (t.header offset).typeflag := by
  have hi : offset + 156 < t.bytes.length := by omega
  have hbyte : (t.slice offset 512)[156]? = some t.bytes[offset + 156] := by
    unfold TarImage.slice
    rw [List.getElem?_take_of_lt (by omega), List.getElem?_drop, List.getElem?_eq_getElem hi]
  rw [byteAt_ok hi]
  show _ = Except.ok ((t.slice offset 512)[156]?.getD 0)
  rw [hbyte]
  rfl

theorem parseOctalAt_size :
    parseOctalAt t (offset + 124) 12 false 0 = .ok (parseOctal (t.header offset).size) := by
  rw [parseOctalAt_eq (by omega), ← header_size]
  rfl

theorem nameHasDotAt_eq : nameHasDotAt t offset =
    .ok (decide ((t.header offset).name[0]? = some 46 ∧ (t.header offset).name[1]? = some slash)) := by
  have hfirst : offset < t.bytes.length := by omega
  have hsecond : offset + 1 < t.bytes.length := by omega
  unfold nameHasDotAt
  rw [byteAt_ok hfirst, byteAt_ok hsecond, header_name, slice_succ hfirst, slice_succ hsecond]
  show (if _ then _ else _) = _
  split
  · next hdot => simp [hdot, pure, Except.pure, bind, Except.bind]
  · next hdot => simp [hdot, pure, Except.pure]

/-- The name without the first two bytes is a slice, too. -/
theorem appendNameAt_eq (out : List UInt8) : appendNameAt t offset out = .ok (do
    let out ← appendPathComponent out
      (if (t.header offset).name[0]? = some 46 ∧ (t.header offset).name[1]? = some slash then
        (t.header offset).name.drop 2
      else (t.header offset).name)
    if out.length ≤ 1 then .error .noent else .ok out) := by
  have hdrop : (t.header offset).name.drop 2 = t.slice (offset + 2) 98 := by
    rw [header_name]
    unfold TarImage.slice
    rw [List.drop_take, List.drop_drop]
  unfold appendNameAt
  rw [nameHasDotAt_eq h]
  by_cases hdot : (t.header offset).name[0]? = some 46 ∧ (t.header offset).name[1]? = some slash
  · rw [if_pos hdot, hdrop, decide_eq_true hdot]
    show (appendPathComponentAt t out (offset + 2) 98 >>= _) = _
    rw [appendPathComponentAt_eq (by omega)]
    cases appendPathComponent out (t.slice (offset + 2) 98) with
    | error e => rfl
    | ok out =>
      show (if _ then _ else _) = Except.ok (if _ then _ else _)
      split <;> rfl
  · rw [if_neg hdot, decide_eq_false hdot, header_name]
    show (appendPathComponentAt t out offset 100 >>= _) = _
    rw [appendPathComponentAt_eq (by omega)]
    cases appendPathComponent out (t.slice offset 100) with
    | error e => rfl
    | ok out =>
      show (if _ then _ else _) = Except.ok (if _ then _ else _)
      split <;> rfl

theorem normalizeTarPathAt_eq :
    normalizeTarPathAt t offset = .ok (normalizeTarPath (t.header offset)) := by
  unfold normalizeTarPathAt normalizeTarPath
  rw [appendPathComponentAt_eq (by omega), ← header_namePrefix]
  cases appendPathComponent [slash] (t.header offset).namePrefix with
  | error e => rfl
  | ok out =>
    show (match appendSlash out with | .error e => _ | .ok out => _) = _
    cases hslash : appendSlash out with
    | error e => simp [hslash, bind, Except.bind, pure, Except.pure]
    | ok out =>
      show appendNameAt t offset out = _
      rw [appendNameAt_eq h]
      simp [hslash, bind, Except.bind]

end headers

/-! ## The loop -/

/-- A file that the parser has recorded: its bytes are in the image, and its path is
    an absolute one in its array, with a name behind the slash. -/
structure EntryInside (t : TarImage) (f : TarEntry) : Prop extends PathOk f.path where
  inside : f.data + f.size.toNat ≤ t.bytes.length
  named : 2 ≤ f.path.length

/-- The file that an entry stands for. -/
def TarEntry.toFile (t : TarImage) (f : TarEntry) : InitrdFile :=
  ⟨f.path, t.slice f.data f.size.toNat, 0⟩

/-- The status and the table as the functions on slices have them. -/
def toFiles (t : TarImage) (result : Except Err Unit × List TarEntry) :
    Except Err Unit × List InitrdFile := (result.1, result.2.map (TarEntry.toFile t))

theorem parseTarFileAt_eq {t : TarImage} {offset : Nat} {fileSize : UInt64} (files : List TarEntry)
    (h : offset + 512 + fileSize.toNat ≤ t.bytes.length) :
    ∃ result, parseTarFileAt t offset fileSize files = .ok result ∧
      toFiles t result = parseTarFile t offset fileSize (files.map (TarEntry.toFile t)) ∧
      ∀ f ∈ result.2, f ∈ files ∨ EntryInside t f := by
  have hheader : offset + 512 ≤ t.bytes.length := by omega
  unfold parseTarFileAt parseTarFile
  rw [header_typeflag hheader, Checked.ok_bind]
  by_cases hkind : tarHeaderIsFile (t.header offset)
  · have hflag : (t.header offset).typeflag = 48 ∨ (t.header offset).typeflag = 0 := hkind
    rw [if_pos hflag, if_pos hkind, normalizeTarPathAt_eq hheader, Checked.ok_bind]
    cases hpath : normalizeTarPath (t.header offset) with
    | error e => exact ⟨_, rfl, rfl, fun f hf => .inl hf⟩
    | ok path =>
      dsimp only
      unfold rememberFile
      rw [List.length_map]
      by_cases hfull : initrdMaxFiles ≤ files.length
      · rw [if_pos hfull, if_pos hfull]
        exact ⟨_, rfl, rfl, fun f hf => .inl hf⟩
      · rw [if_neg hfull, if_neg hfull]
        refine ⟨_, rfl, ?_, ?_⟩
        · simp [toFiles, TarEntry.toFile]
        · intro f hf
          rcases List.mem_append.mp hf with hold | hnew
          · exact .inl hold
          · obtain rfl := List.mem_singleton.mp hnew
            exact .inr ⟨normalizeTarPath_ok hpath, h, normalizeTarPath_long hpath⟩
  · have hflag : ¬ ((t.header offset).typeflag = 48 ∨ (t.header offset).typeflag = 0) := hkind
    rw [if_neg hflag, if_neg hkind]
    exact ⟨_, rfl, rfl, fun f hf => .inl hf⟩

/-- **The loop** ends within a round for each block that is left, reads headers inside
    the image only, and has recorded files of the image, also when it returns an
    error. -/
theorem parseTarLoopAt_eq {t : TarImage} {rounds : Nat} {offset : UInt64} (files : List TarEntry)
    (hoffset : offset.toNat ≤ t.bytes.length)
    (henough : t.bytes.length < offset.toNat + 512 * rounds) :
    ∃ result, parseTarLoopAt t rounds offset files = .ok result ∧
      toFiles t result = parseTarLoop t rounds offset (files.map (TarEntry.toFile t)) ∧
      ∀ f ∈ result.2, f ∈ files ∨ EntryInside t f := by
  -- By induction on the rounds; each one reads inside the image and moves past a header.
  induction rounds generalizing offset files with
  | zero => omega
  | succ rounds ih =>
    have hfits := t.fits
    have hnext : (offset + tarBlockSize).toNat = offset.toNat + 512 := by
      rw [UInt64.toNat_add]
      change (offset.toNat + 512) % 2 ^ 64 = _
      omega
    unfold parseTarLoopAt parseTarLoop
    by_cases hblock : offset + tarBlockSize ≤ t.size
    swap
    · rw [if_neg hblock, if_neg hblock]
      exact ⟨_, rfl, rfl, fun f hf => .inl hf⟩
    have hheader : offset.toNat + 512 ≤ t.bytes.length := by
      have hle := UInt64.le_iff_toNat_le.mp hblock
      rw [hnext, t.toNat_size] at hle
      exact hle
    rw [if_pos hblock, if_pos hblock, memoryIsZeroAt_eq hheader, Checked.ok_bind]
    by_cases hzero : memoryIsZero (t.slice offset.toNat 512) = true
    · rw [if_pos hzero, if_pos hzero]
      exact ⟨_, rfl, rfl, fun f hf => .inl hf⟩
    rw [if_neg hzero, if_neg hzero, parseOctalAt_size hheader, Checked.ok_bind]
    cases hsize : parseOctal (t.header offset.toNat).size with
    | error e => exact ⟨_, rfl, rfl, fun f hf => .inl hf⟩
    | ok fileSize =>
      dsimp only
      by_cases hbounds : t.size < offset + tarBlockSize ∨
          t.size - (offset + tarBlockSize) < paddedSize fileSize
      · rw [if_pos hbounds, if_pos hbounds]
        exact ⟨_, rfl, rfl, fun f hf => .inl hf⟩
      have hround := RoundOk.of_checks hoffset hsize hbounds
      have hstep := hround.step
      rw [if_neg hbounds, if_neg hbounds]
      obtain ⟨⟨r, files'⟩, hfile, hsame, hadded⟩ := parseTarFileAt_eq files hround.inside
      rw [hfile, ← hsame]
      cases r with
      | error e => exact ⟨_, rfl, rfl, hadded⟩
      | ok u =>
        obtain ⟨result, hrun, hsame', hlater⟩ := ih files' hround.next (by omega)
        refine ⟨result, hrun, hsame', ?_⟩
        intro f hf
        rcases hlater f hf with hold | hnew
        · exact hadded f hold
        · exact .inr hnew

/-- A run that has ended stays as it is with more rounds. -/
theorem parseTarLoopAt_more {t : TarImage} {rounds more : Nat} {offset : UInt64}
    {files : List TarEntry} {result : Except Err Unit × List TarEntry}
    (h : parseTarLoopAt t rounds offset files = .ok result) (hmore : rounds ≤ more) :
    parseTarLoopAt t more offset files = .ok result := by
  induction rounds generalizing more offset files with
  | zero => cases h
  | succ rounds ih =>
    obtain ⟨more, rfl⟩ := Nat.exists_eq_add_of_le' (Nat.le_of_add_left_le hmore)
    have hless : rounds ≤ more := by omega
    unfold parseTarLoopAt at h ⊢
    split at h
    swap
    · next hend =>
      rw [if_neg hend]
      exact h
    next hblock =>
    rw [if_pos hblock]
    -- the steps before the next round are the same
    obtain ⟨zero, hzero, h⟩ := except_bind_ok h
    rw [hzero, Checked.ok_bind]
    split at h
    · next hall =>
      rw [if_pos hall]
      exact h
    next hsome =>
    rw [if_neg hsome]
    obtain ⟨size, hsize, h⟩ := except_bind_ok h
    rw [hsize, Checked.ok_bind]
    cases size with
    | error e => exact h
    | ok fileSize =>
      dsimp only at h ⊢
      split at h
      · next hbounds =>
        rw [if_pos hbounds]
        exact h
      next hbounds =>
      rw [if_neg hbounds]
      obtain ⟨⟨r, files'⟩, hfile, h⟩ := except_bind_ok h
      rw [hfile, Checked.ok_bind]
      cases r with
      | error e => exact h
      | ok u => exact ih h hless

/-- **Any image.**  Whatever the bytes of an image are, `parse_tar_image` ends without
    a read outside it, and every file it has recorded has its bytes inside the image
    and an absolute path in its array; with an image of less than a block it returns
    before it touches the table. -/
theorem parse_reads_inside (t : TarImage) (before : List TarEntry) :
    ∃ rounds status files,
      (∀ more, rounds ≤ more → parseTarImageAt t more before = .ok (status, files)) ∧
      (status, files.map (TarEntry.toFile t)) = parseTarImage t (before.map (TarEntry.toFile t)) ∧
      ((t.bytes.length < 512 ∧ files = before) ∨
        ∀ f ∈ files, f.data + f.size.toNat ≤ t.bytes.length ∧ f.path[0]? = some slash ∧
          (0 : UInt8) ∉ f.path ∧ f.path.length < 128 ∧ 2 ≤ f.path.length) := by
  have hblock : tarBlockSize.toNat = 512 := rfl
  have hsmall : t.size < tarBlockSize ↔ t.bytes.length < 512 := by
    rw [UInt64.lt_iff_toNat_lt, t.toNat_size, hblock]
  unfold parseTarImageAt parseTarImage
  by_cases hshort : t.size < tarBlockSize
  · refine ⟨0, .error .inval, before, fun _ _ => if_pos hshort, ?_, .inl ⟨hsmall.mp hshort, rfl⟩⟩
    rw [if_pos hshort]
  -- So many rounds are enough: each one moves by a block at least.
  have henough : t.bytes.length < (0 : UInt64).toNat + 512 * (t.bytes.length / 512 + 1) := by
    rw [UInt64.toNat_zero]
    omega
  obtain ⟨⟨r, files⟩, hrun, hsame, hadded⟩ := parseTarLoopAt_eq [] (Nat.zero_le _) henough
  have hfiles : ∀ f ∈ files, f.data + f.size.toNat ≤ t.bytes.length ∧ f.path[0]? = some slash ∧
      (0 : UInt8) ∉ f.path ∧ f.path.length < 128 ∧ 2 ≤ f.path.length := by
    intro f hf
    rcases hadded f hf with hnone | hinside
    · cases hnone
    · exact ⟨hinside.inside, hinside.root, hinside.text, hinside.short, hinside.named⟩
  simp only [if_neg hshort]
  rw [List.map_nil] at hsame
  rw [← hsame]
  refine ⟨t.bytes.length / 512 + 1,
    match r with | .error e => .error e | .ok _ => if files = [] then .error .noent else .ok (),
    files, ?_, ?_, .inr hfiles⟩
  · intro more hmore
    rw [parseTarLoopAt_more hrun hmore, Checked.ok_bind]
    cases r with
    | error e => rfl
    | ok u => rfl
  · cases r with
    | error e => rfl
    | ok u =>
      simp only [toFiles, List.map_eq_nil_iff]
      split <;> rfl

end Scdk
