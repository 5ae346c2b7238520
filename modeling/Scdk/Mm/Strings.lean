import Scdk.Basic
import Scdk.Lib.Copy
import Scdk.Lib.Memory

/-! # Memory and strings

    Model of `kernel/string.c`, and of the comparisons of `mm/initrd.c` that are built on it.

    * `memcpy`, `memmove`, `memset`, `memcmp`, `strlen`: the functions of the source, on bytes
      by their address,
    * `memmove_eq`, `memcpy_eq`: what a copy leaves in memory, also when the two ranges meet,
    * `memcmp_spec`: a comparison is that of the two texts,
    * `strlen_eq_some`: the length up to the first zero. -/

namespace Scdk

/-! ## Functions -/

/-- `memcpy` -/
def memcpy (m : Memory) (dest src n : Nat) : Memory :=
  copyEach (dest + ·) (src + ·) (List.range n) m

/-- `memmove` -/
def memmove (m : Memory) (dest src n : Nat) : Memory :=
  if dest = src ∨ n = 0 then m
  else if dest < src then copyEach (dest + ·) (src + ·) (List.range n) m
  else copyEach (dest + ·) (src + ·) (List.range n).reverse m

/-- `memset` -/
def memset (m : Memory) (dest : Nat) (c : Int32) (n : Nat) : Memory :=
  (List.range n).foldl (fun m i => Function.update m (dest + i) c.toUInt32.toUInt8) m

/-- `memcmp` -/
def memcmp (m : Memory) (lhs rhs : Nat) : Nat → Int
  | 0 => 0
  | n + 1 => if m lhs ≠ m rhs then (m lhs).toNat - (m rhs).toNat else memcmp m (lhs + 1) (rhs + 1) n

/-- The loop of `strlen`, for at most `fuel` characters. -/
def strlenLoop (m : Memory) (s : Nat) : (fuel len : Nat) → Option Nat
  | 0, _ => none
  | fuel + 1, len => if m (s + len) ≠ 0 then strlenLoop m s fuel (len + 1) else some len

/-- `strlen`, of a string whose zero is among the first `fuel` characters. -/
def strlen (m : Memory) (s fuel : Nat) : Option Nat := strlenLoop m s fuel 0

/-! ## Copies -/

section copies

variable {m : Memory} {dest src n : Nat}

/-- Going upwards, the bytes of the source are read before they are written to. -/
theorem copyEach_up (h : dest ≤ src ∨ src + n ≤ dest) :
    copyEach (dest + ·) (src + ·) (List.range n) m =
      m.overlay (fun x => m (src + (x - dest))) dest n := by
  have hmem : ∀ {i}, i ∈ List.range n → i < n := fun hi => List.mem_range.mp hi
  apply copyEach_eq
  · apply List.pairwise_lt_range.imp
    intro i j hlt
    omega
  · apply List.pairwise_lt_range.imp_of_mem
    intro i j hi hj hlt
    have hin := hmem hi
    have hjn := hmem hj
    omega
  · intro i hi
    have hin := hmem hi
    rw [Memory.overlay_of_mem (by omega)]
    exact congrArg (fun j => m (src + j)) (Nat.add_sub_cancel_left dest i)
  · intro x hx
    apply Memory.overlay_of_not_mem
    by_contra hin
    have hlt : x - dest < n := by omega
    exact hx (x - dest) (List.mem_range.mpr hlt) (by omega)

/-- So they are going downwards, when the source is below. -/
theorem copyEach_down (h : src ≤ dest) :
    copyEach (dest + ·) (src + ·) (List.range n).reverse m =
      m.overlay (fun x => m (src + (x - dest))) dest n := by
  have hmem : ∀ {i}, i ∈ (List.range n).reverse → i < n :=
    fun hi => List.mem_range.mp (List.mem_reverse.mp hi)
  apply copyEach_eq
  · rw [List.pairwise_reverse]
    apply List.pairwise_lt_range.imp
    intro i j hlt
    omega
  · rw [List.pairwise_reverse]
    apply List.pairwise_lt_range.imp
    intro i j hlt
    omega
  · intro i hi
    have hin := hmem hi
    rw [Memory.overlay_of_mem (by omega)]
    exact congrArg (fun j => m (src + j)) (Nat.add_sub_cancel_left dest i)
  · intro x hx
    apply Memory.overlay_of_not_mem
    by_contra hin
    have hlt : x - dest < n := by omega
    exact hx (x - dest) (List.mem_reverse.mpr (List.mem_range.mpr hlt)) (by omega)

/-- `memmove` leaves at the destination what the source had, wherever the two meet. -/
theorem memmove_eq (m : Memory) (dest src n : Nat) :
    memmove m dest src n = m.overlay (fun x => m (src + (x - dest))) dest n := by
  unfold memmove
  by_cases hsame : dest = src ∨ n = 0
  · rw [if_pos hsame]
    funext x
    unfold Memory.overlay
    by_cases hx : dest ≤ x ∧ x < dest + n
    · rw [if_pos hx]
      congr 1
      omega
    · rw [if_neg hx]
  rw [if_neg hsame]
  by_cases hbelow : dest < src
  · rw [if_pos hbelow]
    exact copyEach_up (.inl (Nat.le_of_lt hbelow))
  · rw [if_neg hbelow]
    exact copyEach_down (Nat.not_lt.mp hbelow)

/-- `memcpy` from below into its own source repeats what is before the destination. -/
theorem memcpy_repeats (hlow : src < dest) (m : Memory) (n : Nat) :
    memcpy m dest src n = m.overlay (fun x => m (src + (x - dest) % (dest - src))) dest n := by
  unfold memcpy
  set value : Memory := fun x => m (src + (x - dest) % (dest - src)) with hvalue
  induction n with
  | zero => exact (Memory.overlay_zero m value dest).symm
  | succ n ih =>
    have hnew : value (dest + n) = m (src + n % (dest - src)) := by
      simp only [hvalue, Nat.add_sub_cancel_left]
    -- the byte that is read: one of the destination, or one that is not written yet
    have hread : m.overlay value dest n (src + n) = m (src + n % (dest - src)) := by
      by_cases hwritten : dest ≤ src + n
      · have hback : src + n - dest = n - (dest - src) := by omega
        have hperiod : dest - src ≤ n := by omega
        rw [Memory.overlay_of_mem (by omega)]
        simp only [hvalue, hback]
        rw [← Nat.mod_eq_sub_mod hperiod]
      · rw [Memory.overlay_of_not_mem (by omega), Nat.mod_eq_of_lt (by omega)]
    rw [List.range_succ, copyEach_concat, ih, hread, Memory.overlay_succ, hnew]

/-- What `memset` leaves. -/
theorem memset_eq (m : Memory) (dest : Nat) (c : Int32) (n : Nat) :
    memset m dest c n = m.overlay (fun _ => c.toUInt32.toUInt8) dest n := by
  unfold memset
  induction n with
  | zero => exact (Memory.overlay_zero m _ dest).symm
  | succ n ih => rw [List.range_succ, List.foldl_append, ih, Memory.overlay_succ]; rfl

/-- **Copies.**  `memmove` leaves at the destination what the source had before, and the rest
    of memory alone; `memcpy` does the same, whatever is in memory, exactly when the
    destination does not begin inside the source. -/
theorem memcpy_eq_memmove_iff (dest src n : Nat) :
    (∀ m, memmove m dest src n = m.overlay (fun x => m (src + (x - dest))) dest n) ∧
      ((∀ m, memcpy m dest src n = memmove m dest src n) ↔ ¬ (src < dest ∧ dest < src + n)) := by
  refine ⟨fun m => memmove_eq m dest src n, ?_, ?_⟩
  · rintro hall ⟨hlow, hhigh⟩
    -- memory with a mark where the destination begins
    have hmark := congrFun (hall fun x => if x = dest then 1 else 0) (dest + (dest - src))
    rw [memcpy_repeats hlow, memmove_eq, Memory.overlay_of_mem (by omega),
      Memory.overlay_of_mem (by omega)] at hmark
    simp only [Nat.add_sub_cancel_left, Nat.mod_self, Nat.add_zero] at hmark
    rw [if_neg (by omega), if_pos (by omega)] at hmark
    exact absurd hmark (by decide)
  · intro hout m
    rw [memmove_eq]
    unfold memcpy
    apply copyEach_up
    omega

end copies

/-! ## Comparisons -/

section comparisons

variable {m : Memory} {lhs rhs n : Nat}

/-- The `n` bytes from `a` on. -/
def bytesAt (m : Memory) (a : Nat) : Nat → List UInt8
  | 0 => []
  | n + 1 => m a :: bytesAt m (a + 1) n

/-- `memcmp` compares as texts are compared, by the first byte that differs. -/
theorem memcmp_spec (m : Memory) (lhs rhs n : Nat) :
    (memcmp m lhs rhs n = 0 ↔ bytesAt m lhs n = bytesAt m rhs n) ∧
      (memcmp m lhs rhs n < 0 ↔ bytesAt m lhs n < bytesAt m rhs n) := by
  induction n generalizing lhs rhs with
  | zero => simp [memcmp, bytesAt]
  | succ n ih =>
    unfold memcmp bytesAt
    rw [List.cons_lt_cons_iff, List.cons.injEq]
    by_cases hne : m lhs ≠ m rhs
    · have hnat : (m lhs).toNat ≠ (m rhs).toNat := fun heq => hne (UInt8.toNat_inj.mp heq)
      rw [if_pos hne, UInt8.lt_iff_toNat_lt]
      simp only [hne, false_and, or_false, iff_false]
      omega
    · rw [if_neg hne]
      have heq := not_not.mp hne
      simp [heq, ih]

end comparisons

/-! ## Strings -/

/-- There is a string at an address: its characters, and a zero behind them. -/
structure TextAt (m : Memory) (s : Nat) (text : List UInt8) : Prop where
  chars : bytesAt m s text.length = text
  zero : m (s + text.length) = 0
  plain : ∀ c ∈ text, c ≠ 0

section strings

variable {m : Memory} {s a b fuel : Nat} {text u v : List UInt8}

theorem TextAt.nil_iff : TextAt m s [] ↔ m s = 0 :=
  ⟨fun h => h.zero, fun h => ⟨rfl, h, fun _ hc => absurd hc List.not_mem_nil⟩⟩

theorem TextAt.cons_iff {c : UInt8} :
    TextAt m s (c :: text) ↔ m s = c ∧ c ≠ 0 ∧ TextAt m (s + 1) text := by
  have hlast : s + (c :: text).length = s + 1 + text.length := by
    rw [List.length_cons]
    omega
  constructor
  · intro h
    obtain ⟨hhead, htail⟩ := List.cons.inj h.chars
    have hzero := h.zero
    rw [hlast] at hzero
    exact ⟨hhead, h.plain c List.mem_cons_self, htail, hzero,
      fun d hd => h.plain d (List.mem_cons_of_mem _ hd)⟩
  · intro ⟨hhead, hc, htail⟩
    refine ⟨?_, ?_, ?_⟩
    · show m s :: bytesAt m (s + 1) text.length = _
      rw [hhead, htail.chars]
    · rw [hlast]
      exact htail.zero
    · intro d hd
      rcases List.mem_cons.mp hd with rfl | hd
      · exact hc
      · exact htail.plain d hd

/-- `strlen` counts the characters. -/
theorem TextAt.strlen (h : TextAt m s text) (hfuel : text.length < fuel) :
    Scdk.strlen m s fuel = some text.length := by
  have hloop : ∀ (text : List UInt8) (fuel len : Nat), TextAt m (s + len) text → text.length < fuel →
      strlenLoop m s fuel len = some (len + text.length) := by
    intro text
    induction text with
    | nil =>
      intro fuel len h hfuel
      obtain ⟨fuel, rfl⟩ := Nat.exists_eq_succ_of_ne_zero (Nat.ne_of_gt hfuel)
      unfold strlenLoop
      rw [if_neg (not_not.mpr (TextAt.nil_iff.mp h))]
      rfl
    | cons c text ih =>
      intro fuel len h hfuel
      obtain ⟨fuel, rfl⟩ := Nat.exists_eq_succ_of_ne_zero (Nat.ne_of_gt (Nat.zero_lt_of_lt hfuel))
      obtain ⟨hhead, hc, htail⟩ := TextAt.cons_iff.mp h
      unfold strlenLoop
      rw [hhead, if_pos hc, ih fuel (len + 1) htail (Nat.lt_of_succ_lt_succ hfuel), List.length_cons]
      congr 1
      omega
  unfold Scdk.strlen
  rw [hloop text fuel 0 h hfuel, Nat.zero_add]

/-- The loop of `str_eq`, for at most `fuel` rounds. -/
def strEqLoop (m : Memory) : (fuel : Nat) → (a b : Nat) → Option Bool
  | 0, _, _ => none
  | fuel + 1, a, b =>
    if m a ≠ 0 ∧ m b ≠ 0 then
      if m a ≠ m b then some false else strEqLoop m fuel (a + 1) (b + 1)
    else some (decide (m a = 0 ∧ m b = 0))

/-- `str_eq` -/
def strEq (m : Memory) (fuel a b : Nat) : Option Bool :=
  if a = 0 ∨ b = 0 then some false else strEqLoop m fuel a b

theorem TextAt.strEqLoop (hu : TextAt m a u) (hv : TextAt m b v) (hfuel : u.length < fuel) :
    Scdk.strEqLoop m fuel a b = some (decide (u = v)) := by
  induction u generalizing a b v fuel with
  | nil =>
    obtain ⟨fuel, rfl⟩ := Nat.exists_eq_succ_of_ne_zero (Nat.ne_of_gt hfuel)
    have hzero := nil_iff.mp hu
    unfold Scdk.strEqLoop
    cases v with
    | nil => simp [hzero, nil_iff.mp hv]
    | cons c v =>
      obtain ⟨hhead, hc, _⟩ := cons_iff.mp hv
      simp [hzero, hhead, hc]
  | cons c u ih =>
    obtain ⟨fuel, rfl⟩ := Nat.exists_eq_succ_of_ne_zero (Nat.ne_of_gt (Nat.zero_lt_of_lt hfuel))
    obtain ⟨hhead, hc, htail⟩ := cons_iff.mp hu
    unfold Scdk.strEqLoop
    cases v with
    | nil => simp [hhead, hc, nil_iff.mp hv]
    | cons d v =>
      obtain ⟨hhead', hd, htail'⟩ := cons_iff.mp hv
      rw [hhead, hhead', if_pos ⟨hc, hd⟩, ih htail htail' (Nat.lt_of_succ_lt_succ hfuel)]
      by_cases hcd : c = d
      · simp [hcd]
      · simp [hcd]

/-- `str_ends_with` -/
def strEndsWith (m : Memory) (fuel value suffix : Nat) : Option Bool :=
  if value = 0 ∨ suffix = 0 then some false
  else do
    let valueLen ← strlen m value fuel
    let suffixLen ← strlen m suffix fuel
    if valueLen < suffixLen then some false
    else some (decide (memcmp m (value + valueLen - suffixLen) suffix suffixLen = 0))

theorem bytesAt_drop (m : Memory) (s k n : Nat) :
    bytesAt m (s + k) n = (bytesAt m s (k + n)).drop k := by
  induction k generalizing s with
  | zero => simp
  | succ k ih =>
    have hnext : s + (k + 1) = s + 1 + k := by omega
    have hcount : k + 1 + n = k + n + 1 := by omega
    rw [hnext, ih, hcount]
    rfl

theorem TextAt.strEndsWith (hu : TextAt m a u) (hv : TextAt m b v) (ha : a ≠ 0) (hb : b ≠ 0)
    (hu' : u.length < fuel) (hv' : v.length < fuel) :
    Scdk.strEndsWith m fuel a b = some (decide (v <:+ u)) := by
  unfold Scdk.strEndsWith
  rw [if_neg (not_or.mpr ⟨ha, hb⟩), hu.strlen hu', hv.strlen hv']
  by_cases hshort : u.length < v.length
  · have hnot : ¬ v <:+ u := fun h => absurd h.length_le (Nat.not_le.mpr hshort)
    simp [hshort, hnot]
  · have hle := Nat.not_lt.mp hshort
    have hplace : a + u.length - v.length = a + (u.length - v.length) := by omega
    have hcount : u.length - v.length + v.length = u.length := by omega
    have hsame : memcmp m (a + u.length - v.length) b v.length = 0 ↔ v <:+ u := by
      rw [(memcmp_spec _ _ _ _).1, hplace, bytesAt_drop, hcount, hu.chars, hv.chars,
        List.suffix_iff_eq_drop]
      exact eq_comm
    simp [hshort, hsame]

end strings

/-! ## The module of the initrd -/

/-- `struct limine_file`, with the addresses of its strings. -/
structure LimineFile where
  address : UInt64
  size : UInt64
  path : Nat
  string : Nat
  deriving DecidableEq, Repr

/-- `"scdk.initrd"` -/
def initrdName : List UInt8 := [115, 99, 100, 107, 46, 105, 110, 105, 116, 114, 100]

/-- The loop of `find_initrd_module`; the two literals are at `name` and `suffix`. -/
def findModuleLoop (m : Memory) (fuel name suffix : Nat) :
    List (Option LimineFile) → Option (Option LimineFile)
  | [] => some none
  | none :: modules => findModuleLoop m fuel name suffix modules
  | some file :: modules => do
    if ← strEq m fuel file.string name then some (some file)
    else if ← strEndsWith m fuel file.path suffix then some (some file)
    else findModuleLoop m fuel name suffix modules

/-- `find_initrd_module`, over the list of the modules, if there was a response. -/
def findInitrdModule (m : Memory) (fuel name suffix : Nat) (modules : Option (List (Option LimineFile))) :
    Option (Option LimineFile) :=
  match modules with
  | none => some none
  | some [] => some none
  | some (first :: rest) => do
    match ← findModuleLoop m fuel name suffix (first :: rest) with
    | some file => some (some file)
    | none => some first

section modules

variable {m : Memory} {fuel name suffix : Nat} {file : LimineFile} {modules : List (Option LimineFile)}

/-- The string at an address, if it is not the null pointer. -/
def HasText (m : Memory) (fuel s : Nat) : Prop := s = 0 ∨ ∃ text, TextAt m s text ∧ text.length < fuel

/-- The module has the name of the initrd, or a path to a file of that name. -/
def LimineFile.IsInitrd (m : Memory) (file : LimineFile) : Prop :=
  (file.string ≠ 0 ∧ TextAt m file.string initrdName) ∨
    (file.path ≠ 0 ∧ ∃ text, TextAt m file.path text ∧ (47 :: initrdName) <:+ text)

/-- The strings that are looked at: the two literals, and those of the modules. -/
structure BootStrings (m : Memory) (fuel name suffix : Nat) (modules : List (Option LimineFile)) : Prop where
  named : name ≠ 0 ∧ TextAt m name initrdName
  ending : suffix ≠ 0 ∧ TextAt m suffix (47 :: initrdName)
  short : 12 < fuel
  texts : ∀ file, some file ∈ modules → HasText m fuel file.string ∧ HasText m fuel file.path

/-- There is one string at an address. -/
theorem TextAt.unique {s : Nat} {u v : List UInt8} (hu : TextAt m s u) (hv : TextAt m s v) : u = v := by
  have hequal := (hu.strEqLoop hv (Nat.lt_succ_self _)).symm.trans (hu.strEqLoop hu (Nat.lt_succ_self _))
  simpa using hequal

/-- The test of the loop. -/
theorem BootStrings.test (h : BootStrings m fuel name suffix modules) (hfile : some file ∈ modules) :
    ∃ same ends, strEq m fuel file.string name = some same ∧
      strEndsWith m fuel file.path suffix = some ends ∧
      (file.IsInitrd m ↔ same = true ∨ ends = true) := by
  obtain ⟨hstring, hpath⟩ := h.texts file hfile
  have hsame : ∃ same, strEq m fuel file.string name = some same ∧
      (same = true ↔ file.string ≠ 0 ∧ TextAt m file.string initrdName) := by
    rcases hstring with hnull | ⟨text, htext, hlen⟩
    · exact ⟨false, by simp [strEq, hnull], by simp [hnull]⟩
    · by_cases hnull : file.string = 0
      · exact ⟨false, by simp [strEq, hnull], by simp [hnull]⟩
      · refine ⟨decide (text = initrdName), ?_, ?_⟩
        · unfold strEq
          rw [if_neg (not_or.mpr ⟨hnull, h.named.1⟩)]
          exact htext.strEqLoop h.named.2 hlen
        · rw [decide_eq_true_iff]
          constructor
          · rintro rfl
            exact ⟨hnull, htext⟩
          · exact fun hname => htext.unique hname.2
  have hends : ∃ ends, strEndsWith m fuel file.path suffix = some ends ∧
      (ends = true ↔ file.path ≠ 0 ∧ ∃ text, TextAt m file.path text ∧ (47 :: initrdName) <:+ text) := by
    rcases hpath with hnull | ⟨text, htext, hlen⟩
    · exact ⟨false, by simp [strEndsWith, hnull], by simp [hnull]⟩
    · by_cases hnull : file.path = 0
      · exact ⟨false, by simp [strEndsWith, hnull], by simp [hnull]⟩
      · refine ⟨decide ((47 :: initrdName) <:+ text), ?_, ?_⟩
        · exact htext.strEndsWith h.ending.2 hnull h.ending.1 hlen h.short
        · rw [decide_eq_true_iff]
          constructor
          · exact fun hsuffix => ⟨hnull, text, htext, hsuffix⟩
          · rintro ⟨_, text', htext', hsuffix⟩
            rwa [htext.unique htext']
  obtain ⟨same, hs, hs'⟩ := hsame
  obtain ⟨ends, he, he'⟩ := hends
  exact ⟨same, ends, hs, he, by rw [hs', he']; rfl⟩

/-- The loop finds the first module that is the initrd. -/
theorem findModuleLoop_spec (h : BootStrings m fuel name suffix modules) :
    (∃ before file after, modules = before ++ some file :: after ∧ file.IsInitrd m ∧
        (∀ other, some other ∈ before → ¬ other.IsInitrd m) ∧
        findModuleLoop m fuel name suffix modules = some (some file)) ∨
      ((∀ other, some other ∈ modules → ¬ other.IsInitrd m) ∧
        findModuleLoop m fuel name suffix modules = some none) := by
  induction modules with
  | nil => exact .inr ⟨fun _ hmem => absurd hmem List.not_mem_nil, rfl⟩
  | cons head modules ih =>
    have htail : BootStrings m fuel name suffix modules :=
      ⟨h.named, h.ending, h.short, fun file hfile => h.texts file (List.mem_cons_of_mem _ hfile)⟩
    -- a head that is not the initrd leaves it to the others
    have hskip : (∀ other, some other = head → ¬ other.IsInitrd m) →
        findModuleLoop m fuel name suffix (head :: modules) =
          findModuleLoop m fuel name suffix modules →
        (∃ before file after, head :: modules = before ++ some file :: after ∧ file.IsInitrd m ∧
            (∀ other, some other ∈ before → ¬ other.IsInitrd m) ∧
            findModuleLoop m fuel name suffix (head :: modules) = some (some file)) ∨
          ((∀ other, some other ∈ head :: modules → ¬ other.IsInitrd m) ∧
            findModuleLoop m fuel name suffix (head :: modules) = some none) := by
      intro hnot hrun
      rw [hrun]
      rcases ih htail with ⟨before, file, after, rfl, hfile, hbefore, hfound⟩ | ⟨hnone, hfound⟩
      · refine .inl ⟨head :: before, file, after, rfl, hfile, ?_, hfound⟩
        intro other hother
        rcases List.mem_cons.mp hother with heq | hmem
        · exact hnot other heq
        · exact hbefore other hmem
      · refine .inr ⟨?_, hfound⟩
        intro other hother
        rcases List.mem_cons.mp hother with heq | hmem
        · exact hnot other heq
        · exact hnone other hmem
    cases head with
    | none => exact hskip (fun _ heq => by cases heq) rfl
    | some file =>
      obtain ⟨same, ends, hsame, hends, hiff⟩ := h.test (List.mem_cons_self : some file ∈ _)
      have hrun : findModuleLoop m fuel name suffix (some file :: modules) =
          if same = true then some (some file) else if ends = true then some (some file)
          else findModuleLoop m fuel name suffix modules := by
        rw [findModuleLoop, hsame, hends]
        rfl
      by_cases his : file.IsInitrd m
      · left
        refine ⟨[], file, modules, rfl, his, fun _ hmem => absurd hmem List.not_mem_nil, ?_⟩
        rw [hrun]
        rcases hiff.mp his with rfl | rfl
        · rfl
        · simp
      · obtain ⟨hs, he⟩ := not_or.mp (fun hor => his (hiff.mpr hor))
        apply hskip
        · intro other heq
          obtain rfl := Option.some.inj heq
          exact his
        · rw [hrun, if_neg hs, if_neg he]

/-- **The module of the initrd.**  It is the first one with the name or the path of the
    initrd, and the first module of all if there is none. -/
theorem initrd_module_found (h : BootStrings m fuel name suffix modules) :
    (∃ before file after, modules = before ++ some file :: after ∧ file.IsInitrd m ∧
        (∀ other, some other ∈ before → ¬ other.IsInitrd m) ∧
        findInitrdModule m fuel name suffix (some modules) = some (some file)) ∨
      ((∀ other, some other ∈ modules → ¬ other.IsInitrd m) ∧
        findInitrdModule m fuel name suffix (some modules) = some modules.head?.join) := by
  cases modules with
  | nil => exact .inr ⟨fun _ hmem => absurd hmem List.not_mem_nil, rfl⟩
  | cons first rest =>
    rcases findModuleLoop_spec h with ⟨before, file, after, hcut, hfile, hbefore, hfound⟩ | ⟨hnone, hfound⟩
    · refine .inl ⟨before, file, after, hcut, hfile, hbefore, ?_⟩
      simp [findInitrdModule, hfound]
    · refine .inr ⟨hnone, ?_⟩
      simp [findInitrdModule, hfound]

/-- Memory with the path of a module behind the two literals. -/
def bootMemory : Memory := fun a =>
  ([0] ++ initrdName ++ [0, 47] ++ initrdName ++ [0, 98, 47] ++ initrdName ++ [0])[a]?.getD 0

/-- A module without a name, whose path ends in that of the initrd. -/
theorem initrd_module_found_path :
    findInitrdModule bootMemory 20 1 13 (some [none, some ⟨0, 0, 0, 0⟩, some ⟨1, 1, 26, 0⟩]) =
      some (some ⟨1, 1, 26, 0⟩) := by
  have hname : TextAt bootMemory 1 initrdName :=
    ⟨by decide, by decide, by simp [initrdName]⟩
  have hsuffix : TextAt bootMemory 13 (47 :: initrdName) :=
    ⟨by decide, by decide, by simp [initrdName]⟩
  have hpath : TextAt bootMemory 26 (98 :: 47 :: initrdName) :=
    ⟨by decide, by decide, by simp [initrdName]⟩
  have hstrings : BootStrings bootMemory 20 1 13 [none, some ⟨0, 0, 0, 0⟩, some ⟨1, 1, 26, 0⟩] := by
    refine ⟨⟨by decide, hname⟩, ⟨by decide, hsuffix⟩, by decide, ?_⟩
    intro file hfile
    simp only [List.mem_cons, Option.some.injEq, List.not_mem_nil, or_false, reduceCtorEq, false_or] at hfile
    rcases hfile with rfl | rfl
    · exact ⟨.inl rfl, .inl rfl⟩
    · exact ⟨.inl rfl, .inr ⟨_, hpath, by decide⟩⟩
  have hsecond : (LimineFile.mk 1 1 26 0).IsInitrd bootMemory :=
    .inr ⟨by decide, _, hpath, List.suffix_cons _ _⟩
  rcases initrd_module_found hstrings with ⟨before, file, after, hcut, hfile, _, hfound⟩ | ⟨hnone, _⟩
  · have hmem : some file ∈ [none, some (LimineFile.mk 0 0 0 0), some ⟨1, 1, 26, 0⟩] := by
      rw [hcut]
      simp
    simp only [List.mem_cons, Option.some.injEq, List.not_mem_nil, or_false, reduceCtorEq, false_or] at hmem
    rcases hmem with rfl | rfl
    · rcases hfile with ⟨hnull, _⟩ | ⟨hnull, _⟩
      · exact absurd rfl hnull
      · exact absurd rfl hnull
    · exact hfound
  · exact absurd hsecond (hnone _ (by simp))

end modules

end Scdk
