import Scdk.Mm.TarImage
import Mathlib.Data.List.TakeDrop

/-! # Reading back an archive

    What `tar --format=ustar` writes, and that `parse_tar_image` reads it back.

    * `TarMember`, `encodeArchive`: the members of an archive and its bytes,
    * `parseOctal_octal`: a number that was written is read,
    * `ofBlock_encodeHeader`: the fields of a header that was written,
    * `parseTarLoop_member`, `parseTarLoop_archive`: a round of the loop over one
      member, and the loop over the rest of the archive,
    * `decode_encode_archive`: the table has the regular files of the archive. -/

namespace Scdk

/-! ## Archives -/

/-- A member of an archive.  The fields of its header that are never read are any
    bytes: `owner` is `mode`, `uid` and `gid`; `stamp` is `mtime` and `chksum`;
    `link` is `linkname` to `devminor`. -/
structure TarMember where
  name : List UInt8
  owner : List UInt8
  stamp : List UInt8
  typeflag : UInt8
  link : List UInt8
  namePrefix : List UInt8
  padding : List UInt8
  payload : List UInt8
  deriving DecidableEq, Repr

/-- The last `k` octal digits of a number. -/
def octal : Nat → Nat → List UInt8
  | 0, _ => []
  | k + 1, n => UInt8.ofNat (48 + n / 8 ^ k % 8) :: octal k n

/-- The field `size`: eleven octal digits and a zero. -/
def encodeSize (n : Nat) : List UInt8 := octal 11 n ++ [0]

/-- A field of the header: it is cut to its length, or ends with zeros. -/
def tarField (n : Nat) (bytes : List UInt8) : List UInt8 := bytes.takeD n 0

/-- The header of a member. -/
def encodeHeader (m : TarMember) : List UInt8 :=
  tarField 100 m.name ++ (tarField 24 m.owner ++ (encodeSize m.payload.length ++
    (tarField 20 m.stamp ++ (m.typeflag :: (tarField 188 m.link ++
      (tarField 155 m.namePrefix ++ tarField 12 m.padding))))))

/-- The zeros that fill the last block of a payload. -/
def payloadPadding (m : TarMember) : List UInt8 :=
  List.replicate ((m.payload.length + 511) / 512 * 512 - m.payload.length) 0

/-- A member in the archive: its header and its payload. -/
def encodeMember (m : TarMember) : List UInt8 := encodeHeader m ++ (m.payload ++ payloadPadding m)

/-- The archive, with so many blocks of zeros behind the members. -/
def encodeArchive (members : List TarMember) (zeros : Nat) : List UInt8 :=
  members.flatMap encodeMember ++ List.replicate (512 * zeros) 0

/-- The member is a regular file. -/
def TarMember.IsFile (m : TarMember) : Prop := m.typeflag = 48 ∨ m.typeflag = 0

instance (m : TarMember) : Decidable m.IsFile := inferInstanceAs (Decidable (_ ∨ _))

/-- The entry of the file table for a regular file. -/
def TarMember.toFile (m : TarMember) : InitrdFile := ⟨slash :: m.name, m.payload, 0⟩

/-- The entries for the regular files of an archive. -/
def filesOf (members : List TarMember) : List InitrdFile :=
  (members.filter fun m => m.IsFile).map TarMember.toFile

/-- The members that the table can name: the size has eleven digits, and the path
    of a regular file is its name. -/
structure TarMember.Plain (m : TarMember) : Prop where
  small : m.payload.length < 8 ^ 11
  noPrefix : m.IsFile → m.namePrefix = []
  text : m.IsFile → (0 : UInt8) ∉ m.name
  named : m.IsFile → 1 ≤ m.name.length ∧ m.name.length ≤ 100
  noDot : m.IsFile → ¬ ([46, slash] <+: m.name)

/-! ## Numbers -/

theorem length_octal (k n : Nat) : (octal k n).length = k := by
  induction k with
  | zero => rfl
  | succ k ih => simp [octal, ih]

@[simp] theorem length_encodeSize (n : Nat) : (encodeSize n).length = 12 := by
  simp [encodeSize, length_octal]

/-- A digit is none of the characters that end the number, and in range. -/
theorem octalDigit_cases {d : Nat} (hd : d < 8) :
    ¬ (UInt8.ofNat (48 + d) = 0 ∨ UInt8.ofNat (48 + d) = 32) ∧
      ¬ (UInt8.ofNat (48 + d) < 48 ∨ 55 < UInt8.ofNat (48 + d)) ∧
      (UInt8.ofNat (48 + d) - 48).toUInt64.toNat = d := by
  have hall : ∀ d : Fin 8, ¬ (UInt8.ofNat (48 + d) = 0 ∨ UInt8.ofNat (48 + d) = 32) ∧
      ¬ (UInt8.ofNat (48 + d) < 48 ∨ 55 < UInt8.ofNat (48 + d)) ∧
      (UInt8.ofNat (48 + d) - 48).toUInt64.toNat = d := by
    decide
  exact hall ⟨d, hd⟩

/-- The loop over the digits of a number, with the digits before them in `value`. -/
theorem parseOctalLoop_octal {k n j : Nat} {value : UInt64} {sawDigit : Bool} (hk : j + k ≤ 20)
    (hvalue : value.toNat < 8 ^ j) (hsaw : sawDigit = true ∨ 0 < k) :
    ∃ result, parseOctalLoop (octal k n ++ [0]) sawDigit value = .ok result ∧
      result.toNat = value.toNat * 8 ^ k + n % 8 ^ k := by
  induction k generalizing j value sawDigit with
  | zero =>
    have hsaw : sawDigit = true := by simpa using hsaw
    exact ⟨value, by simp [octal, parseOctalLoop, hsaw], by simp [Nat.mod_one]⟩
  | succ k ih =>
    obtain ⟨hend, hrange, hdigit⟩ := octalDigit_cases (Nat.mod_lt (n / 8 ^ k) (by decide : 0 < 8))
    have hnext := toNat_octalNext (by omega) hvalue (by rw [hdigit]; omega)
    have hshift := toNat_octalShift (by omega : j < 20) hvalue (by rw [hdigit]; omega)
    obtain ⟨result, heq, hresult⟩ := ih (by omega : j + 1 + k ≤ 20) hnext (.inl rfl)
    refine ⟨result, ?_, ?_⟩
    · rw [octal, List.cons_append, parseOctalLoop, if_neg hend, if_neg hrange]
      exact heq
    · -- the digit and the ones behind it are the last `k + 1` digits of `n`
      have hsplit : n % 8 ^ (k + 1) = 8 ^ k * (n / 8 ^ k % 8) + n % 8 ^ k := by
        rw [Nat.pow_succ, Nat.mod_mul, Nat.add_comm]
      rw [hresult, hshift, hdigit, hsplit, Nat.pow_succ]
      ring

/-- A size that was written is read. -/
theorem parseOctal_encodeSize {n : Nat} (h : n < 8 ^ 11) :
    ∃ size, parseOctal (encodeSize n) = .ok size ∧ size.toNat = n := by
  have hzero : (0 : UInt64).toNat < 8 ^ 0 := by decide
  obtain ⟨size, heq, hsize⟩ : ∃ size, parseOctal (encodeSize n) = .ok size ∧
      size.toNat = (0 : UInt64).toNat * 8 ^ 11 + n % 8 ^ 11 :=
    parseOctalLoop_octal (by decide : 0 + 11 ≤ 20) hzero (.inr (by decide))
  refine ⟨size, heq, ?_⟩
  rw [hsize, Nat.mod_eq_of_lt h]
  exact Nat.zero_add n

/-! ## Headers -/

@[simp] theorem length_tarField (n : Nat) (bytes : List UInt8) : (tarField n bytes).length = n :=
  List.takeD_length n bytes 0

@[simp] theorem length_encodeHeader (m : TarMember) : (encodeHeader m).length = 512 := by
  simp [encodeHeader]

/-- The fields of a header that was written. -/
theorem ofBlock_encodeHeader (m : TarMember) : TarHeader.ofBlock (encodeHeader m) =
    ⟨tarField 100 m.name, encodeSize m.payload.length, m.typeflag, tarField 155 m.namePrefix⟩ := by
  have hname : (encodeHeader m).take 100 = tarField 100 m.name := List.take_left' (by simp)
  have hsize : ((encodeHeader m).drop 124).take 12 = encodeSize m.payload.length := by
    unfold encodeHeader
    rw [← List.append_assoc, List.drop_left' (by simp)]
    exact List.take_left' (by simp)
  have hflag : (encodeHeader m)[156]? = some m.typeflag := by
    unfold encodeHeader
    rw [← List.append_assoc, ← List.append_assoc, ← List.append_assoc]
    rw [List.getElem?_append_right (by simp)]
    simp
  have hlead : ((encodeHeader m).drop 345).take 155 = tarField 155 m.namePrefix := by
    unfold encodeHeader
    rw [← List.append_assoc, ← List.append_assoc, ← List.append_assoc, ← List.cons_append,
      ← List.append_assoc, List.drop_left' (by simp)]
    exact List.take_left' (by simp)
  unfold TarHeader.ofBlock
  rw [hname, hsize, hflag, hlead]
  rfl

/-- The digits of the size are not zero. -/
theorem memoryIsZero_encodeHeader (m : TarMember) : ¬ memoryIsZero (encodeHeader m) = true := by
  intro hzero
  have hall := List.all_eq_true.mp hzero
  have hdigit : UInt8.ofNat (48 + m.payload.length / 8 ^ 10 % 8) ∈ encodeHeader m := by
    simp [encodeHeader, encodeSize, octal]
  have hcases := octalDigit_cases (Nat.mod_lt (m.payload.length / 8 ^ 10) (by decide : 0 < 8))
  exact hcases.1 (.inl (by simpa using hall _ hdigit))

/-! ## Paths -/

/-- A name in its field, whether or not it fills it. -/
theorem cString_tarField {name : List UInt8} {n : Nat} (htext : (0 : UInt8) ∉ name)
    (hlen : name.length ≤ n) : cString (tarField n name) = name := by
  induction name generalizing n with
  | nil => simp [tarField, cString]
  | cons c name ih =>
    rw [List.mem_cons, not_or] at htext
    rw [List.length_cons] at hlen
    obtain ⟨n, rfl⟩ := Nat.exists_eq_add_of_le' (Nat.le_of_add_left_le hlen)
    have hrest := ih htext.2 (by omega : name.length ≤ n)
    unfold cString tarField at hrest ⊢
    rw [List.takeD_succ, List.head?_cons, Option.getD_some, List.tail_cons, List.takeWhile_cons,
      if_pos (decide_eq_true (Ne.symm htext.1)), hrest]

/-- A field starts with `"./"` only if the name does. -/
theorem noDot_tarField {name : List UInt8} (hlen : 1 ≤ name.length)
    (hdot : ¬ ([46, slash] <+: name)) :
    ¬ ((tarField 100 name)[0]? = some 46 ∧ (tarField 100 name)[1]? = some slash) := by
  rintro ⟨hfirst, hsecond⟩
  match name, hlen with
  | [c], _ => cases hsecond
  | c :: c' :: rest, _ =>
    have hc : c = 46 := Option.some.inj hfirst
    have hc' : c' = slash := Option.some.inj hsecond
    exact hdot ⟨rest, by rw [hc, hc']; rfl⟩

/-- The path of a regular file. -/
theorem normalizeTarPath_plain {m : TarMember} (h : m.Plain) (hfile : m.IsFile) :
    normalizeTarPath (.ofBlock (encodeHeader m)) = .ok (slash :: m.name) := by
  obtain ⟨hpos, hshort⟩ := h.named hfile
  have hname := cString_tarField (h.text hfile) hshort
  have hempty : cString (tarField 155 m.namePrefix) = [] := by
    rw [h.noPrefix hfile]
    exact cString_tarField (by simp) (by simp)
  have hne : m.name ≠ [] := List.ne_nil_of_length_pos hpos
  have hdot := noDot_tarField hpos (h.noDot hfile)
  have hfirst : appendPathComponent [slash] (tarField 155 m.namePrefix) = .ok [slash] := by
    unfold appendPathComponent
    rw [if_pos hempty]
  have hsecond : appendPathComponent [slash] (tarField 100 m.name) = .ok (slash :: m.name) := by
    unfold appendPathComponent
    rw [hname, if_neg hne, if_neg (by simp [initrdMaxPath]; omega)]
    rfl
  have hroot : appendSlash [slash] = .ok [slash] := rfl
  have hlong : ¬ (slash :: m.name).length ≤ 1 := by
    rw [List.length_cons]
    omega
  rw [ofBlock_encodeHeader]
  unfold normalizeTarPath
  simp only [hfirst, hroot, if_neg hdot, hsecond, if_neg hlong, bind, Except.bind]

/-! ## Members -/

theorem length_encodeMember (m : TarMember) :
    (encodeMember m).length = 512 + (m.payload.length + 511) / 512 * 512 := by
  have hpadding : (payloadPadding m).length =
      (m.payload.length + 511) / 512 * 512 - m.payload.length := List.length_replicate
  unfold encodeMember
  rw [List.length_append, List.length_append, length_encodeHeader, hpadding]
  omega

/-- The archive goes on with the member `m` at `offset`. -/
def MemberAt (t : TarImage) (offset : Nat) (m : TarMember) : Prop :=
  encodeMember m <+: t.bytes.drop offset

theorem MemberAt.header {t : TarImage} {offset : Nat} {m : TarMember} (h : MemberAt t offset m) :
    t.slice offset 512 = encodeHeader m := by
  obtain ⟨rest, heq⟩ := h
  unfold TarImage.slice
  rw [← heq, encodeMember, List.append_assoc]
  exact List.take_left' (length_encodeHeader m)

theorem MemberAt.payload {t : TarImage} {offset : Nat} {m : TarMember} (h : MemberAt t offset m) :
    t.slice (offset + 512) m.payload.length = m.payload := by
  obtain ⟨rest, heq⟩ := h
  unfold TarImage.slice
  rw [← List.drop_drop, ← heq, encodeMember, List.append_assoc,
    List.drop_left' (length_encodeHeader m), List.append_assoc]
  exact List.take_left' rfl

theorem MemberAt.inside {t : TarImage} {offset : Nat} {m : TarMember} (h : MemberAt t offset m) :
    offset + 512 + (m.payload.length + 511) / 512 * 512 ≤ t.bytes.length := by
  have hle := h.length_le
  rw [List.length_drop, length_encodeMember] at hle
  omega

/-- What a member adds to the table. -/
theorem parseTarFile_member {t : TarImage} {offset : Nat} {m : TarMember} {size : UInt64}
    {files : List InitrdFile} (hat : MemberAt t offset m) (hplain : m.Plain)
    (hsize : size.toNat = m.payload.length)
    (hroom : files.length + (filesOf [m]).length ≤ initrdMaxFiles) :
    parseTarFile t offset size files = (.ok (), files ++ filesOf [m]) := by
  have hheader : t.header offset = .ofBlock (encodeHeader m) := by
    unfold TarImage.header
    rw [hat.header]
  have hflag : tarHeaderIsFile (t.header offset) ↔ m.IsFile := by
    unfold tarHeaderIsFile TarMember.IsFile
    rw [hheader, ofBlock_encodeHeader]
  unfold parseTarFile
  by_cases hfile : m.IsFile
  · have hone : filesOf [m] = [m.toFile] := by simp [filesOf, hfile]
    rw [hone] at hroom ⊢
    rw [if_pos (hflag.mpr hfile), hheader, normalizeTarPath_plain hplain hfile]
    dsimp only
    unfold rememberFile
    rw [if_neg (Nat.not_le.mpr hroom), hsize, hat.payload]
    rfl
  · have hnone : filesOf [m] = [] := by simp [filesOf, hfile]
    rw [if_neg (mt hflag.mp hfile), hnone, List.append_nil]

/-- **One member.**  A round of the loop reads it and goes on behind it. -/
theorem parseTarLoop_member {t : TarImage} {offset : UInt64} {m : TarMember}
    {files : List InitrdFile} (rounds : Nat) (hat : MemberAt t offset.toNat m) (hplain : m.Plain)
    (hroom : files.length + (filesOf [m]).length ≤ initrdMaxFiles) :
    ∃ next : UInt64, next.toNat = offset.toNat + (encodeMember m).length ∧
      parseTarLoop t (rounds + 1) offset files =
        parseTarLoop t rounds next (files ++ filesOf [m]) := by
  obtain ⟨size, hparse, hsize⟩ := parseOctal_encodeSize hplain.small
  have hfits := t.fits
  have hinside := hat.inside
  have htotal := t.toNat_size
  have hsmall : size.toNat < 2 ^ 36 := by
    have hlen := hplain.small
    have hpow : 8 ^ 11 ≤ 2 ^ 36 := by decide
    omega
  have hpadded := toNat_paddedSize hsmall
  rw [hsize] at hpadded
  have hdata : (offset + tarBlockSize).toNat = offset.toNat + 512 := by
    rw [UInt64.toNat_add]
    change (offset.toNat + 512) % 2 ^ 64 = _
    omega
  -- Header and padded payload are as long as the encoded member.
  have hnext : (offset + tarBlockSize + paddedSize size).toNat =
      offset.toNat + (encodeMember m).length := by
    rw [UInt64.toNat_add, hdata, hpadded, length_encodeMember]
    omega
  have hle : offset + tarBlockSize ≤ t.size := by
    rw [UInt64.le_iff_toNat_le, hdata, htotal]
    omega
  have hbounds : ¬ (t.size < offset + tarBlockSize ∨
      t.size - (offset + tarBlockSize) < paddedSize size) := by
    rw [not_or, UInt64.not_lt, UInt64.not_lt]
    refine ⟨hle, ?_⟩
    rw [UInt64.le_iff_toNat_le, UInt64.toNat_sub_of_le _ _ hle, htotal, hdata, hpadded]
    omega
  have hfield : (t.header offset.toNat).size = encodeSize m.payload.length := by
    unfold TarImage.header
    rw [hat.header, ofBlock_encodeHeader]
  refine ⟨_, hnext, ?_⟩
  rw [parseTarLoop, if_pos hle, hat.header, if_neg (memoryIsZero_encodeHeader m), hfield, hparse]
  dsimp only
  rw [if_neg hbounds, parseTarFile_member hat hplain hsize hroom]

/-! ## The archive -/

/-- **The rest of the archive.**  By induction on the members that are left: the
    loop stands at the first of them, and behind the last one there are only zeros. -/
theorem parseTarLoop_archive {t : TarImage} {members : List TarMember} {zeros rounds : Nat}
    {offset : UInt64} {files : List InitrdFile}
    (hrest : t.bytes.drop offset.toNat = encodeArchive members zeros)
    (hrounds : members.length < rounds) (hplain : ∀ m ∈ members, m.Plain)
    (hroom : files.length + (filesOf members).length ≤ initrdMaxFiles) :
    parseTarLoop t rounds offset files = (.ok (), files ++ filesOf members) := by
  -- By induction on the members: each round reads one of them.
  induction members generalizing offset files rounds with
  | nil =>
    obtain ⟨rounds, rfl⟩ := Nat.exists_eq_succ_of_ne_zero (Nat.ne_zero_of_lt hrounds)
    have hnone : filesOf [] = [] := rfl
    have hzero : memoryIsZero (t.slice offset.toNat 512) = true := by
      unfold TarImage.slice
      rw [hrest]
      simp [memoryIsZero, encodeArchive]
    rw [parseTarLoop, if_pos hzero, ite_self, hnone, List.append_nil]
  | cons m members ih =>
    obtain ⟨rounds, rfl⟩ := Nat.exists_eq_succ_of_ne_zero (Nat.ne_zero_of_lt hrounds)
    have hsplit : filesOf (m :: members) = filesOf [m] ++ filesOf members := by
      unfold filesOf
      rw [← List.map_append, ← List.filter_append]
      rfl
    have hcons : encodeArchive (m :: members) zeros = encodeMember m ++ encodeArchive members zeros := by
      simp [encodeArchive]
    rw [hsplit, List.length_append] at hroom
    have hat : MemberAt t offset.toNat m := ⟨encodeArchive members zeros, by rw [hrest, hcons]⟩
    obtain ⟨next, hnext, hround⟩ := parseTarLoop_member rounds hat (hplain m List.mem_cons_self)
      (by omega : files.length + (filesOf [m]).length ≤ initrdMaxFiles)
    have hdrop : t.bytes.drop next.toNat = encodeArchive members zeros := by
      rw [hnext, ← List.drop_drop, hrest, hcons, List.drop_left]
    rw [hround, ih hdrop (by simpa using hrounds)
      (fun m hm => hplain m (List.mem_cons_of_mem _ hm)) (by rw [List.length_append]; omega)]
    rw [hsplit, List.append_assoc]

theorem length_encodeArchive (members : List TarMember) (zeros : Nat) :
    512 * members.length ≤ (encodeArchive members zeros).length := by
  induction members with
  | nil => exact Nat.zero_le _
  | cons m members ih =>
    simp only [encodeArchive, List.flatMap_cons, List.length_append, List.length_cons,
      length_encodeMember] at ih ⊢
    omega

/-- **Decoding undoes encoding.**  From an archive of up to 32 regular files and any
    other members, `parse_tar_image` records exactly the regular files, in order,
    with their names, sizes and payloads. -/
theorem decode_encode_archive {members : List TarMember} {zeros : Nat} {t : TarImage}
    (files : List InitrdFile) (ht : t.bytes = encodeArchive members zeros)
    (hplain : ∀ m ∈ members, m.Plain) (hsome : 1 ≤ (members.filter fun m => m.IsFile).length)
    (hroom : (members.filter fun m => m.IsFile).length ≤ initrdMaxFiles) :
    parseTarImage t files = (.ok (), (members.filter fun m => m.IsFile).map TarMember.toFile) ∧
      ∀ m ∈ members.filter fun m => m.IsFile,
        m.toFile.path = slash :: m.name ∧ m.toFile.data = m.payload ∧
          m.toFile.size.toNat = m.payload.length := by
  have hlength : (filesOf members).length = (members.filter fun m => m.IsFile).length :=
    List.length_map _
  have hlong : 512 * members.length ≤ t.bytes.length := by
    rw [ht]
    exact length_encodeArchive members zeros
  have hmembers : 1 ≤ members.length := hsome.trans (List.length_filter_le _ _)
  have hloop : parseTarLoop t (t.bytes.length / 512 + 1) 0 [] = (.ok (), [] ++ filesOf members) := by
    apply parseTarLoop_archive (by simpa using ht) (by omega) hplain
    rw [hlength]
    simpa using hroom
  have hsize : ¬ t.size < tarBlockSize := by
    rw [UInt64.not_lt, UInt64.le_iff_toNat_le, t.toNat_size]
    change 512 ≤ _
    omega
  have hne : filesOf members ≠ [] := List.ne_nil_of_length_pos (by omega)
  constructor
  · unfold parseTarImage
    rw [if_neg hsize, hloop, List.nil_append]
    exact if_neg hne
  · intro m hm
    have hsmall := (hplain m (List.mem_filter.mp hm).1).small
    have hpow : 8 ^ 11 ≤ 2 ^ 64 := by decide
    exact ⟨rfl, rfl, UInt64.toNat_ofNat_of_lt' (show m.payload.length < 2 ^ 64 by omega)⟩

/-- A directory `d` and an executable `a`. -/
def smallArchive : List TarMember :=
  [⟨[100, slash], [], [], 53, [], [], [], []⟩, ⟨[97], [], [], 48, [], [], [], [1, 2, 3]⟩]

def smallImage : TarImage := ⟨encodeArchive smallArchive 2, by decide +kernel⟩

theorem decode_encode_small : parseTarImage smallImage [] = (.ok (), [⟨[slash, 97], [1, 2, 3], 0⟩]) := by
  have hplain : ∀ m ∈ smallArchive, m.Plain := by
    intro m hm
    constructor
    all_goals
      revert m
      decide
  exact (decode_encode_archive [] rfl hplain (by decide) (by decide)).1

end Scdk
