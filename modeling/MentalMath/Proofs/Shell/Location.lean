import Mathlib.Data.List.DropRight
import MentalMath.Shell.Location

/-! The addresses of databases. A location is brought into one of three normal forms, each of which
stays as it is when it is given as a location itself. An address of a file names a path from the
root, so it is never refused for want of one. -/

namespace MentalMath

namespace Text

variable {mark : Char} {cs before : List Char} {rest : Option (List Char)}

/-- Nothing is blank at the ends. -/
structure Trimmed (cs : List Char) : Prop where
  left : trimLeft cs = cs
  right : trimRight cs = cs

theorem trimLeft_of_prefix (h : cs <+: before) (hb : trimLeft before = before) :
    trimLeft cs = cs := by
  obtain ⟨rest, rfl⟩ := h
  cases cs with
  | nil => rfl
  | cons c cs =>
    cases hc : isBlank c with
    | false => exact trimLeft_eq_self hc
    | true =>
      -- A blank at the front would have been taken off.
      simp only [trimLeft, List.cons_append, List.dropWhile_cons, hc, if_true] at hb
      have hlength := congrArg List.length hb
      have hle := (List.dropWhile_suffix isBlank (l := cs ++ rest)).length_le
      simp only [List.length_cons] at hlength
      omega

theorem trimmed_trim (s : String) : Trimmed (trim s).toList := by
  rw [trim, String.toList_ofList]
  constructor
  · apply trimLeft_of_prefix (List.rdropWhile_prefix isBlank _)
    exact List.dropWhile_idempotent isBlank s.toList
  · exact List.rdropWhile_idempotent isBlank _

theorem trim_of_trimmed (h : Trimmed cs) : (trim (String.ofList cs)).toList = cs := by
  rw [trim, String.toList_ofList, String.toList_ofList, h.left, h.right]

/-- Only the last character says whether a text ends in a blank. -/
theorem trimRight_append_cons {c : Char} {tail : List Char} (h : trimRight cs = cs)
    (hcs : ∃ front, cs = front ++ c :: tail) (front : List Char) :
    trimRight (front ++ c :: tail) = front ++ c :: tail := by
  obtain ⟨old, rfl⟩ := hcs
  have hlast := (List.rdropWhile_eq_self_iff (p := isBlank)).mp h (by simp)
  apply (List.rdropWhile_eq_self_iff (p := isBlank)).mpr
  intro hne
  simpa using hlast

/-- What stands before the first mark, and what stands after it if there is one. -/
inductive Cuts (mark : Char) (cs : List Char) : List Char → Option (List Char) → Prop
  | whole (h : mark ∉ cs) : Cuts mark cs cs none
  | parted {before rest : List Char} (h : mark ∉ before) (hcs : cs = before ++ mark :: rest) :
    Cuts mark cs before (some rest)

theorem Cuts.cut_eq (h : Cuts mark cs before rest) : cut mark cs = (before, rest) := by
  cases h with
  | whole h => exact cut_of_notMem h
  | parted h hcs =>
    rw [hcs]
    exact cut_append h _

theorem Cuts.unmarked (h : Cuts mark cs before rest) : mark ∉ before := by
  cases h with
  | whole h => exact h
  | parted h => exact h

theorem Cuts.starts (h : Cuts mark cs before rest) : before <+: cs := by
  cases h with
  | whole => exact List.prefix_refl cs
  | parted _ hcs => exact hcs ▸ List.prefix_append before _

theorem exists_cuts (mark : Char) (cs : List Char) : ∃ before rest, Cuts mark cs before rest := by
  by_cases h : mark ∈ cs
  · obtain ⟨before, rest, rfl, hn⟩ := List.eq_append_cons_of_mem h
    exact ⟨before, some rest, .parted hn rfl⟩
  · exact ⟨cs, none, .whole h⟩

end Text

namespace Shell

open Text

variable {directory location place name path address : List Char} {query : Option (List Char)}

/-- A path from the root, without a mark in it. -/
structure Rooted (path : List Char) : Prop where
  root : ∃ rest, path = '/' :: rest
  unmarked : '?' ∉ path

/-- A path from the root that stands for a name. -/
structure Leads (directory name path : List Char) : Prop extends Rooted path where
  named : path = name ∨ ∃ base ∈ [directory, directory ++ ['/']], path = base ++ name

/-- The names of the memory of the program. -/
def memoryNames : List (List Char) :=
  [":memory:", "memory", memoryAddress].map String.toList

/-- The normal form of a location without blanks at its ends: the memory of the program, a place that
is handed on as it was given, or else a file with what is asked of it. -/
inductive Addresses (directory location : List Char) : List Char → Prop
  | memory (h : location ∈ memoryNames) : Addresses directory location memoryAddress.toList
  | passed {place : List Char} {query : Option (List Char)} (hcut : Cuts '?' location place query)
      (h : "sqlite:file:".toList <+: place) : Addresses directory location location
  | file {place name path : List Char} {query : Option (List Char)}
      (hother : location ∉ memoryNames) (hcut : Cuts '?' location place query)
      (hfile : ¬"sqlite:file:".toList <+: place)
      (hplace : ∃ scheme ∈ ["sqlite://", "sqlite:", ""], place = scheme.toList ++ name)
      (hpath : Leads directory name path) :
    Addresses directory location
      ("sqlite://".toList ++ path ++ '?' :: query.getD "mode=rwc".toList)

theorem exists_scheme (place : List Char) :
    ∃ scheme ∈ ["sqlite://", "sqlite:", ""], place = scheme.toList ++ pathOf place := by
  unfold pathOf
  split
  case h_1 path h => exact ⟨_, by simp, after?_eq_some_iff.mp h⟩
  case h_2 =>
    cases h : after? "sqlite:".toList place with
    | none => exact ⟨"", by simp, rfl⟩
    | some path => exact ⟨"sqlite:", by simp, after?_eq_some_iff.mp h⟩

theorem leads_absolutePath (hd : Rooted directory) (hn : '?' ∉ name) :
    Leads directory name (absolutePath directory name) := by
  obtain ⟨⟨rest, rfl⟩, hmark⟩ := hd
  unfold absolutePath
  split
  case h_1 rest => exact ⟨⟨⟨rest, rfl⟩, hn⟩, .inl rfl⟩
  case h_2 =>
    split
    · exact ⟨⟨⟨_, rfl⟩, by simp_all⟩, .inr ⟨_, by simp, rfl⟩⟩
    · exact ⟨⟨⟨_, rfl⟩, by simp_all⟩, .inr ⟨_, by simp, rfl⟩⟩

/-- Every location is brought into one of the normal forms. -/
theorem addresses_addressOf (hd : Rooted directory) (location : List Char) :
    Addresses directory location (addressOf directory location) := by
  obtain ⟨place, query, hcut⟩ := exists_cuts '?' location
  unfold addressOf
  split
  case isTrue h => exact .memory (by simpa [memoryNames] using h)
  case isFalse hother =>
    rw [hcut.cut_eq]
    dsimp only
    split
    case isTrue h =>
      obtain ⟨rest, hrest⟩ := isSome_after?_iff.mp h
      exact .passed hcut ⟨rest, hrest.symm⟩
    case isFalse hfile =>
      have hplace := exists_scheme place
      refine .file (by simpa [memoryNames] using hother) hcut ?_ hplace
        (leads_absolutePath hd fun hmem => ?_)
      · rintro ⟨rest, hrest⟩
        exact hfile (isSome_after?_iff.mpr ⟨rest, hrest.symm⟩)
      · obtain ⟨scheme, -, heq⟩ := hplace
        apply hcut.unmarked
        rw [heq]
        exact List.mem_append_right _ hmem

/-! ### Normal forms as locations -/

theorem addressOf_memory : addressOf directory memoryAddress.toList = memoryAddress.toList :=
  if_pos (.inr (.inr rfl))

theorem addressOf_passed (hcut : Cuts '?' location place query)
    (h : "sqlite:file:".toList <+: place) : addressOf directory location = location := by
  obtain ⟨rest, hrest⟩ := h
  unfold addressOf
  split
  case isTrue halias =>
    -- No name of the memory starts like this.
    exfalso
    cases hcut <;> subst hrest <;> simp_all [memoryAddress]
  case isFalse =>
    rw [hcut.cut_eq]
    exact if_pos (isSome_after?_iff.mpr ⟨rest, hrest.symm⟩)

theorem addressOf_file (hpath : Rooted path) (query : List Char) :
    addressOf directory ("sqlite://".toList ++ path ++ '?' :: query) =
      "sqlite://".toList ++ path ++ '?' :: query := by
  obtain ⟨⟨rest, rfl⟩, hmark⟩ := hpath
  have hplace : '?' ∉ "sqlite://".toList ++ '/' :: rest := by simpa using hmark
  unfold addressOf
  rw [if_neg (by simp [memoryAddress]), cut_append hplace]
  rfl

theorem Addresses.addressOf_eq (h : Addresses directory location address)
    (directory' : List Char) : addressOf directory' address = address := by
  cases h with
  | memory => exact addressOf_memory
  | passed hcut h => exact addressOf_passed hcut h
  | file _ _ _ _ hpath => exact addressOf_file hpath.toRooted _

/-- A query ends as the location does. -/
theorem Addresses.trimmed (h : Addresses directory location address) (ht : Trimmed location) :
    Trimmed address := by
  cases h with
  | memory => exact ⟨by decide, by decide⟩
  | passed => exact ht
  | file _ hcut =>
    refine ⟨rfl, ?_⟩
    cases hcut with
    | whole =>
      have hmode : trimRight ('?' :: "mode=rwc".toList) = '?' :: "mode=rwc".toList := by decide
      exact trimRight_append_cons hmode ⟨[], rfl⟩ _
    | parted _ hcs => exact trimRight_append_cons ht.right ⟨_, hcs⟩ _

/-- The path of a file is not empty, and the other addresses are none of files. -/
theorem Addresses.lacksPath_eq (h : Addresses directory location address) :
    lacksPath (String.ofList address) = false := by
  rw [lacksPath, filePath?, String.toList_ofList (l := address)]
  cases h with
  | memory => decide
  | passed hcut h =>
    obtain ⟨rest, hrest⟩ := h.trans hcut.starts
    subst hrest
    rfl
  | file _ _ _ _ hpath =>
    obtain ⟨⟨rest, rfl⟩, hmark⟩ := hpath.toRooted
    rw [List.append_assoc, after?_eq_some_iff.mpr rfl, Option.map_some, cut_append hmark]
    simp [String.ext_iff]

theorem toList_normalizeLocation (directory raw : String) :
    (normalizeLocation directory raw).toList = addressOf directory.toList (trim raw).toList := by
  rw [normalizeLocation, trim, String.toList_ofList, String.toList_ofList]

/-- The address of a location is its normal form, which names a file unless it is one of the memory.
Given as a location itself, whatever the directory is then, it stays as it is. -/
theorem Rooted.normal {directory : String} (hd : Rooted directory.toList) (raw : String) :
    Addresses directory.toList (trim raw).toList (normalizeLocation directory raw).toList ∧
      (∀ directory', normalizeLocation directory' (normalizeLocation directory raw) =
        normalizeLocation directory raw) ∧
      lacksPath (normalizeLocation directory raw) = false := by
  have hform := addresses_addressOf hd (trim raw).toList
  rw [← toList_normalizeLocation] at hform
  refine ⟨hform, fun directory' => ?_, ?_⟩
  · have htrim := trim_of_trimmed (hform.trimmed (trimmed_trim raw))
    rw [String.ofList_toList] at htrim
    rw [← String.toList_inj, toList_normalizeLocation, htrim, hform.addressOf_eq]
  · have hpath := hform.lacksPath_eq
    rwa [String.ofList_toList] at hpath

/-- In the directory at the root, every text has a normal form, which is its own normal form and is
never refused. -/
theorem normalizeLocation_normal (raw : String) :
    Addresses ['/'] (trim raw).toList (normalizeLocation "/" raw).toList ∧
      normalizeLocation "/" (normalizeLocation "/" raw) = normalizeLocation "/" raw ∧
      lacksPath (normalizeLocation "/" raw) = false := by
  have hroot : Rooted ("/" : String).toList := ⟨⟨[], rfl⟩, by decide⟩
  obtain ⟨hform, hagain, hpath⟩ := hroot.normal raw
  exact ⟨hform, hagain "/", hpath⟩

example : normalizeLocation "/" " sqlite:sqlite://a?b? " = "sqlite:///sqlite://a?b?" := by decide

end Shell

end MentalMath
