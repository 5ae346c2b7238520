import Scdk.Mm.TarEncode

/-! # Paths split over two fields

    A ustar header keeps a path in one field, or its last part in `name` and the part
    before a slash in `prefix`.  `normalize_tar_path` puts the two together.  It drops
    `"./"` at the start of `name`, but not at the start of `prefix`.

    * `HasDot`: the text starts with `"./"`,
    * `normalizeTarPath_name`: the path of a header without a prefix,
    * `normalizeTarPath_split`: the path of a header with one,
    * `split_path_iff`: exactly when they are the same. -/

namespace Scdk

/-! ## Fields -/

/-- The text starts with `"./"`. -/
def HasDot (text : List UInt8) : Prop := [46, slash] <+: text

instance (text : List UInt8) : Decidable (HasDot text) := inferInstanceAs (Decidable (_ <+: _))

/-- The test on the bytes of the field is one on its text. -/
theorem hasDot_cString (field : List UInt8) :
    field[0]? = some 46 ∧ field[1]? = some slash ↔ HasDot (cString field) := by
  unfold HasDot cString
  constructor
  · rintro ⟨hfirst, hsecond⟩
    match field, hfirst, hsecond with
    | c :: c' :: rest, hfirst, hsecond =>
      obtain rfl : c = 46 := Option.some.inj hfirst
      obtain rfl : c' = slash := Option.some.inj hsecond
      exact ⟨rest.takeWhile (· ≠ 0), rfl⟩
  · rintro ⟨rest, hrest⟩
    have hlead : [46, slash] ++ rest <+: field := by
      rw [hrest]
      exact List.takeWhile_prefix _
    obtain ⟨more, rfl⟩ := hlead
    exact ⟨rfl, rfl⟩

/-- Behind the dropped characters, the text goes on as before. -/
theorem cString_drop_dot {field : List UInt8} (h : HasDot (cString field)) :
    cString (field.drop 2) = (cString field).drop 2 := by
  obtain ⟨hfirst, hsecond⟩ := (hasDot_cString field).mpr h
  match field, hfirst, hsecond with
  | c :: c' :: rest, hfirst, hsecond =>
    obtain rfl : c = 46 := Option.some.inj hfirst
    obtain rfl : c' = slash := Option.some.inj hsecond
    rfl

/-- What `normalize_tar_path` takes of a name. -/
def undotted (name : List UInt8) : List UInt8 := if HasDot name then name.drop 2 else name

theorem cString_undotted (header : TarHeader) :
    cString (if header.name[0]? = some 46 ∧ header.name[1]? = some slash then header.name.drop 2
      else header.name) = undotted (cString header.name) := by
  unfold undotted
  by_cases hdot : HasDot (cString header.name)
  · rw [if_pos ((hasDot_cString _).mpr hdot), if_pos hdot]
    exact cString_drop_dot hdot
  · rw [if_neg (mt (hasDot_cString _).mp hdot), if_neg hdot]

/-- A component that fits. -/
theorem appendPathComponent_fits {out component : List UInt8}
    (h : out.length + (cString component).length < initrdMaxPath) :
    appendPathComponent out component = .ok (out ++ cString component) := by
  unfold appendPathComponent
  split
  · next hempty => rw [hempty, List.append_nil]
  · rw [if_neg (by omega)]

/-- The name of a header, where it fits. -/
theorem appendName_fits (header : TarHeader) (out : List UInt8)
    (h : out.length + (undotted (cString header.name)).length < initrdMaxPath) :
    appendPathComponent out
      (if header.name[0]? = some 46 ∧ header.name[1]? = some slash then header.name.drop 2
        else header.name) = .ok (out ++ undotted (cString header.name)) := by
  have hname := cString_undotted header
  rw [← hname] at h ⊢
  exact appendPathComponent_fits h

/-! ## The two headers -/

section

variable {header : TarHeader} {a b : List UInt8}

/-- Without a prefix the path is the name, behind a slash. -/
theorem normalizeTarPath_name (hempty : cString header.namePrefix = [])
    (hsome : undotted (cString header.name) ≠ [])
    (hshort : (undotted (cString header.name)).length < 127) :
    normalizeTarPath header = .ok (slash :: undotted (cString header.name)) := by
  have hpos := List.length_pos_iff.mpr hsome
  have hfirst : appendPathComponent [slash] header.namePrefix = .ok [slash] := if_pos hempty
  have hroot : appendSlash [slash] = .ok [slash] := rfl
  have hsecond := appendName_fits header [slash] (show 1 + _ < 128 by omega)
  have hlong : ¬ ([slash] ++ undotted (cString header.name)).length ≤ 1 := by
    rw [List.length_append, List.length_singleton]
    omega
  unfold normalizeTarPath
  simp only [hfirst, hroot, hsecond, if_neg hlong, bind, Except.bind]
  rfl

/-- With a prefix it is the prefix and the name, each behind a slash. -/
theorem normalizeTarPath_split (ha : cString header.namePrefix = a) (hsome : a ≠ [])
    (hshort : a.length + (undotted (cString header.name)).length < 126) :
    normalizeTarPath header = .ok (slash :: a ++ slash :: undotted (cString header.name)) := by
  have hpos := List.length_pos_iff.mpr hsome
  have hfirst : appendPathComponent [slash] header.namePrefix = .ok ([slash] ++ a) := by
    rw [← ha]
    apply appendPathComponent_fits
    rw [ha]
    show 1 + a.length < 128
    omega
  have hslash : appendSlash ([slash] ++ a) = .ok ([slash] ++ a ++ [slash]) := by
    unfold appendSlash
    rw [if_pos (by simp; omega), if_neg (by simp [initrdMaxPath]; omega)]
  have hout : ([slash] ++ a ++ [slash]).length = a.length + 2 := by
    simp
  have hsecond := appendName_fits header ([slash] ++ a ++ [slash]) (show _ < 128 by omega)
  have hlong : ¬ ([slash] ++ a ++ [slash] ++ undotted (cString header.name)).length ≤ 1 := by
    rw [List.length_append, hout]
    omega
  unfold normalizeTarPath
  simp only [hfirst, hslash, hsecond, if_neg hlong, bind, Except.bind]
  simp

end

theorem hasDot_append {a b : List UInt8} (ha : a ≠ []) :
    HasDot (a ++ slash :: b) ↔ a = [46] ∨ HasDot a := by
  unfold HasDot
  match a, ha with
  | [c], _ =>
    rw [List.singleton_append, List.cons_prefix_cons, List.cons_prefix_cons]
    constructor
    · rintro ⟨rfl, _⟩
      exact .inl rfl
    · rintro (heq | ⟨more, heq⟩)
      · obtain rfl : c = 46 := List.singleton_inj.mp heq
        exact ⟨rfl, rfl, List.nil_prefix⟩
      · cases heq
  | c :: c' :: rest, _ =>
    simp [List.cons_prefix_cons]

/-- **Split paths.**  A header with the prefix `a` and the name `b`, and one with the
    whole path as its name, have the same status and path if and only if `a` is not
    `"."` and does not start with `"./"`. -/
theorem split_path_iff {split whole : TarHeader} {a b : List UInt8}
    (hsplit : cString split.namePrefix = a ∧ cString split.name = b)
    (hwhole : cString whole.namePrefix = [] ∧ cString whole.name = a ++ slash :: b)
    (ha : a ≠ []) (hb : b ≠ []) (hlen : (a ++ slash :: b).length ≤ 100) (hdot : ¬ HasDot b) :
    normalizeTarPath split = normalizeTarPath whole ↔ ¬ (a = [46] ∨ HasDot a) := by
  rw [List.length_append, List.length_cons] at hlen
  have hapos := List.length_pos_iff.mpr ha
  have hbpos := List.length_pos_iff.mpr hb
  have hname : undotted (cString split.name) = b := by
    rw [hsplit.2]
    exact if_neg hdot
  -- The prefix keeps its dot, while the whole name loses it.
  have hleft : normalizeTarPath split = .ok (slash :: a ++ slash :: b) := by
    rw [normalizeTarPath_split hsplit.1 ha (by rw [hname]; omega), hname]
  have hpath : undotted (cString whole.name) =
      if a = [46] ∨ HasDot a then (a ++ slash :: b).drop 2 else a ++ slash :: b := by
    rw [hwhole.2]
    unfold undotted
    simp only [hasDot_append ha]
  have hlength : (undotted (cString whole.name)).length =
      a.length + (b.length + 1) - if a = [46] ∨ HasDot a then 2 else 0 := by
    rw [hpath]
    split <;> simp
  have hright : normalizeTarPath whole = .ok (slash :: undotted (cString whole.name)) := by
    apply normalizeTarPath_name hwhole.1
    · apply List.ne_nil_of_length_pos
      rw [hlength]
      split <;> omega
    · rw [hlength]
      omega
  rw [hleft, hright]
  constructor
  · -- without the two characters the path is shorter
    intro heq hcut
    have hlens := congrArg List.length (Except.ok.inj heq)
    rw [List.cons_append, List.length_cons, List.length_append, List.length_cons, List.length_cons,
      hlength, if_pos hcut] at hlens
    omega
  · intro hkept
    rw [hpath, if_neg hkept]
    rfl

/-- A header with these two fields. -/
def headerOf (namePrefix name : List UInt8) : TarHeader :=
  ⟨tarField 100 name, [], 48, tarField 155 namePrefix⟩

/-- The path `"a/b"`. -/
theorem split_path_plain :
    normalizeTarPath (headerOf [97] [98]) = normalizeTarPath (headerOf [] [97, slash, 98]) :=
  (split_path_iff (a := [97]) (b := [98]) (by decide) (by decide) (by decide) (by decide) (by decide)
    (by decide)).mpr (by decide)

/-- The path `"./b"`: the whole path gives `"/b"`, the split one `"/./b"`. -/
theorem split_path_differs :
    cString (headerOf [46] [98]).namePrefix = [46] ∧ cString (headerOf [46] [98]).name = [98] ∧
      cString (headerOf [] [46, slash, 98]).namePrefix = [] ∧
      cString (headerOf [] [46, slash, 98]).name = [46] ++ slash :: [98] ∧
      normalizeTarPath (headerOf [46] [98]) ≠ normalizeTarPath (headerOf [] [46, slash, 98]) := by
  decide

end Scdk
