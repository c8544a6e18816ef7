import Lily.Text.Delimiter
import Lily.Text.Percent
import Lily.Text.Utf8
import Mathlib.Data.List.Forall2

/-!
# The file that a request for a static file names

A mount serves the files below a directory for the requests below a prefix. What follows the prefix
is decoded segment by segment, by any percent decoder, and becomes a relative path, in the sense
that the standard library gives to the text of a path on Unix.
-/

namespace Lily.WebCore.StaticFile

open Utf8 (bytes)

inductive StaticFileError where
  | invalidRoutePrefix
  | invalidRequestPath
  | notFound
  | pathTooLong (limitBytes : Nat)
  deriving DecidableEq

def maxStaticFilePathBytes : Nat := 4 * 1024

def maxStaticFileRoutePrefixBytes : Nat := 1024

/-! ## Paths of the standard library -/

inductive Component where
  | rootDir
  | curDir
  | parentDir
  | normal (name : List Char)

/-- Empty names and dots say nothing, except a dot at the start of a relative path. -/
def component : List Char → Option Component
  | [] | ['.'] => none
  | ['.', '.'] => some .parentDir
  | name => some (.normal name)

def start (path : List Char) : List Component :=
  if path.head? = some '/' then [.rootDir]
  else if (path.splitOn '/').head? = some ['.'] then [.curDir] else []

def components (path : List Char) : List Component :=
  start path ++ (path.splitOn '/').filterMap component

/-- An absolute path replaces the one it is pushed on. -/
def push (path name : List Char) : List Char :=
  if name.head? = some '/' then name
  else if path = [] ∨ path.getLast? = some '/' then path ++ name
  else path ++ '/' :: name

/-! ## The mount and the request -/

def validateRoutePrefix (value : List Char) : Except StaticFileError (List Char) :=
  if value.isEmpty || maxStaticFileRoutePrefixBytes < (bytes value).length ||
      value.head? != some '/' || value.any (128 ≤ ·.toNat) ||
      value.any ['?', '#', '\x00', '\\', '%'].contains ||
      value != ['/'] && value.getLast? == some '/' ||
      value != ['/'] && ((value.splitOn '/').drop 1).any
        fun segment => segment.isEmpty || segment == ['.'] || segment == ['.', '.'] then
    .error .invalidRoutePrefix
  else .ok value

/-- The prefix of a mount has been validated. -/
structure RoutePrefix where
  value : List Char
  valid : validateRoutePrefix value = .ok value

/-- The path of a request is kept with its query. -/
def pathOf (target : List Char) : List Char := target.takeWhile (· != '?')

def rawRelative (mount path : List Char) : Option (List Char) :=
  if mount = ['/'] then path.dropPrefix? ['/']
  else (path.dropPrefix? mount).bind (·.dropPrefix? ['/'])

def isForbiddenByte (b : UInt8) : Bool :=
  b == 0 || b == 47 || b == 92 || 1 ≤ b && b ≤ 31 || b == 127

def isForbidden (segment : List Char) : Bool :=
  segment.isEmpty || segment == ['.'] || segment == ['.', '.'] ||
    (bytes segment).any isForbiddenByte

def separatorBytes (relative : List Char) : Nat := if relative = [] then 0 else 1

section Decoder

variable [Percent.Decoder]

/-- The loop over the segments, with the bytes decoded so far. -/
def pushSegments : Nat → List Char → List (List Char) → Except StaticFileError (List Char)
  | _, relative, [] => .ok relative
  | decodedBytes, relative, raw :: rest =>
    if raw.isEmpty || !Percent.valid (bytes raw) then .error .invalidRequestPath
    else match Utf8.decode (Percent.Decoder.decode (bytes raw)) with
      | none => .error .invalidRequestPath
      | some segment =>
        let decodedBytes := decodedBytes + separatorBytes relative + (bytes segment).length
        if maxStaticFilePathBytes < decodedBytes || isForbidden segment then
          .error .invalidRequestPath
        else pushSegments decodedBytes (push relative segment) rest

def requestRelativePath (target mount : List Char) : Except StaticFileError (List Char) :=
  match rawRelative mount (pathOf target) with
  | none => .error .invalidRequestPath
  | some raw =>
    if raw.isEmpty then .error .notFound
    else if maxStaticFilePathBytes < (bytes raw).length then
      .error (.pathTooLong maxStaticFilePathBytes)
    else match pushSegments 0 [] (raw.splitOn '/') with
      | .error error => .error error
      | .ok relative =>
        if (components relative).all fun c => c matches .normal _ then .ok relative
        else .error .invalidRequestPath

end Decoder

/-! ## Segments -/

/-- The segment of a request that stands for a name. -/
structure Names (raw name : List Char) : Prop where
  encoded : Percent.Encodes (bytes raw) (bytes name)
  nonempty : name ≠ []
  notCurrent : name ≠ ['.']
  notParent : name ≠ ['.', '.']
  clean : ∀ c ∈ name, c ≠ '/' ∧ c ≠ '\\' ∧ 32 ≤ c.toNat ∧ c.toNat ≠ 127

theorem isForbiddenByte_ascii :
    ∀ n < 128, isForbiddenByte (UInt8.ofNat n) = true ↔ n = 47 ∨ n = 92 ∨ n < 32 ∨ n = 127 := by
  decide

theorem isForbiddenByte_high {b : UInt8} (h : 128 ≤ b.toNat) : isForbiddenByte b = false := by
  simp only [isForbiddenByte, UInt8.le_iff_toNat_le, ← UInt8.toNat_inj, beq_eq_decide]
  simp
  omega

theorem any_isForbiddenByte {c : Char} :
    (String.utf8EncodeChar c).any isForbiddenByte = true ↔
      c = '/' ∨ c = '\\' ∨ c.toNat < 32 ∨ c.toNat = 127 := by
  rw [← Char.toNat_inj, ← Char.toNat_inj]
  by_cases hascii : c.toNat < 128
  · rw [Utf8.utf8EncodeChar_ascii hascii, List.any_cons, List.any_nil, Bool.or_false]
    exact isForbiddenByte_ascii _ hascii
  · have hnone : (String.utf8EncodeChar c).any isForbiddenByte = false :=
      List.any_eq_false.mpr fun b hb => by
        rcases Utf8.mem_utf8EncodeChar hb with hlow | hhigh
        · exact absurd hlow.2 hascii
        · simp [isForbiddenByte_high hhigh]
    have : '/'.toNat = 47 ∧ '\\'.toNat = 92 := by decide
    rw [hnone, this.1, this.2]
    simp
    omega

variable {name : List Char}

theorem isForbidden_eq_false : isForbidden name = false ↔
    name ≠ [] ∧ name ≠ ['.'] ∧ name ≠ ['.', '.'] ∧
      ∀ c ∈ name, c ≠ '/' ∧ c ≠ '\\' ∧ 32 ≤ c.toNat ∧ c.toNat ≠ 127 := by
  have hbytes : (bytes name).any isForbiddenByte = false ↔
      ∀ c ∈ name, c ≠ '/' ∧ c ≠ '\\' ∧ 32 ≤ c.toNat ∧ c.toNat ≠ 127 := by
    rw [bytes, List.any_flatMap, List.any_eq_false]
    refine forall₂_congr fun c _ => ?_
    rw [any_isForbiddenByte]
    simp
  simp [isForbidden, hbytes, and_assoc]

variable {raw : List Char}

theorem Names.raw_ne_nil (h : Names raw name) : raw ≠ [] := by
  rintro rfl
  have hempty : bytes name = bytes [] := List.eq_nil_of_length_eq_zero (by
    simpa [bytes] using h.encoded.length_le)
  have hname := Utf8.decode_bytes name
  rw [hempty, Utf8.decode_bytes] at hname
  exact h.nonempty (Option.some.inj hname).symm

theorem names_iff [Percent.Decoder] : Names raw name ↔
    (raw.isEmpty || !Percent.valid (bytes raw)) = false ∧
      Utf8.decode (Percent.Decoder.decode (bytes raw)) = some name ∧
      isForbidden name = false := by
  rw [Utf8.decode_eq_some_iff, isForbidden_eq_false]
  constructor
  · intro h
    obtain ⟨hvalid, hdecode⟩ := Percent.encodes_iff.mp h.encoded
    refine ⟨?_, hdecode, h.nonempty, h.notCurrent, h.notParent, h.clean⟩
    rw [hvalid, Bool.not_true, Bool.or_false, List.isEmpty_eq_false_iff]
    exact h.raw_ne_nil
  · rintro ⟨hraw, hdecode, hne, hdot, hdots, hclean⟩
    refine ⟨Percent.encodes_iff.mpr ⟨?_, hdecode⟩, hne, hdot, hdots, hclean⟩
    simpa using (Bool.or_eq_false_iff.mp hraw).2

theorem Names.length_le (h : Names raw name) : (bytes name).length ≤ (bytes raw).length :=
  h.encoded.length_le

theorem Names.slash_notMem (h : Names raw name) : '/' ∉ name :=
  fun hmem => (h.clean '/' hmem).1 rfl

/-! ## The loop over the segments -/

theorem length_intercalate_cons {rest : List (List Char)} (h : rest ≠ []) :
    (bytes (['/'].intercalate (raw :: rest))).length =
      (bytes raw).length + 1 + (bytes (['/'].intercalate rest)).length := by
  have hslash : bytes ['/'] = [47] := by decide
  rw [List.intercalate_cons_of_ne_nil h, Utf8.bytes_append, Utf8.bytes_append, hslash]
  simp only [List.length_append, List.length_singleton]

variable {raws : List (List Char)} {path : List Char}

/-- The bytes that are decoded are never more than those they are decoded from, so the second limit
never refuses what the first has passed. -/
theorem pushSegments_ok_iff [Percent.Decoder] {decodedBytes : Nat} {relative : List Char}
    (hfits : raws ≠ [] → decodedBytes + separatorBytes relative +
      (bytes (['/'].intercalate raws)).length ≤ maxStaticFilePathBytes) :
    pushSegments decodedBytes relative raws = .ok path ↔
      ∃ names, List.Forall₂ Names raws names ∧ path = names.foldl push relative := by
  induction raws generalizing decodedBytes relative with
  | nil => simp [pushSegments, eq_comm]
  | cons raw rest ih =>
    have hfits := hfits (List.cons_ne_nil _ _)
    have hlimit : ∀ name, Names raw name → decodedBytes + separatorBytes relative +
        (bytes name).length ≤ maxStaticFilePathBytes := by
      intro name hname
      have hlength := hname.length_le
      have : (bytes raw).length ≤ (bytes (['/'].intercalate (raw :: rest))).length := by
        by_cases hrest : rest = []
        · simp [hrest]
        · rw [length_intercalate_cons hrest]
          omega
      omega
    have hnext : ∀ name, Names raw name → rest ≠ [] →
        decodedBytes + separatorBytes relative + (bytes name).length +
          separatorBytes (push relative name) + (bytes (['/'].intercalate rest)).length ≤
            maxStaticFilePathBytes := by
      intro name hname hrest
      have hlength := hname.length_le
      have hseparator : separatorBytes (push relative name) ≤ 1 := by
        unfold separatorBytes
        split <;> omega
      rw [length_intercalate_cons hrest] at hfits
      omega
    rw [pushSegments]
    constructor
    · intro h
      split_ifs at h with hraw
      split at h
      · cases h
      next name hdecode =>
        dsimp only at h
        split_ifs at h with hpasses
        simp only [Bool.or_eq_true, not_or, Bool.not_eq_true] at hpasses
        have hname : Names raw name :=
          names_iff.mpr ⟨Bool.not_eq_true _ ▸ hraw, hdecode, hpasses.2⟩
        obtain ⟨names, hnames, rfl⟩ := (ih (hnext name hname)).mp h
        exact ⟨name :: names, .cons hname hnames, rfl⟩
    · rintro ⟨_, hnames, rfl⟩
      cases hnames with
      | @cons _ name _ names hname hnames =>
        obtain ⟨hvalid, hdecode, hclean⟩ := names_iff.mp hname
        have hpasses := Nat.not_lt.mpr (hlimit name hname)
        simp only [hvalid, hdecode, hclean, hpasses, decide_false, Bool.or_self,
          Bool.false_eq_true, if_false]
        exact (ih (hnext name hname)).mpr ⟨names, hnames, rfl⟩

/-! ## The path that is returned -/

theorem push_of_names (h : Names raw name) (hpath : path.getLast? ≠ some '/') :
    push path name = if path = [] then name else path ++ '/' :: name := by
  have hhead : name.head? ≠ some '/' := fun hhead =>
    h.slash_notMem (List.mem_of_mem_head? hhead)
  by_cases hempty : path = []
  · simp [push, hhead, hempty]
  · simp [push, hhead, hempty, hpath]

variable {names : List (List Char)} (h : List.Forall₂ Names raws names)

include h

theorem foldl_push (hpath : path ≠ []) (hlast : path.getLast? ≠ some '/') :
    names.foldl push path = ['/'].intercalate (path :: names) := by
  induction h generalizing path with
  | nil => simp
  | @cons raw name raws names hname hnames ih =>
    have hne : path ++ '/' :: name ≠ [] := by simp
    have hend : (path ++ '/' :: name).getLast? ≠ some '/' := by
      rw [List.getLast?_append_of_ne_nil _ (List.cons_ne_nil _ _),
        List.getLast?_cons_of_ne_nil hname.nonempty]
      exact fun hlast => hname.slash_notMem (List.mem_of_getLast? hlast)
    rw [List.foldl_cons, push_of_names hname hlast, if_neg hpath, ih hne hend]
    cases names with
    | nil => simp
    | cons next names => simp

theorem foldl_push_nil : names.foldl push [] = ['/'].intercalate names := by
  cases h with
  | nil => rfl
  | @cons raw name raws names hname hnames =>
    have hlast : name.getLast? ≠ some '/' := fun hlast =>
      hname.slash_notMem (List.mem_of_getLast? hlast)
    rw [List.foldl_cons, push_of_names hname (by simp), if_pos rfl,
      foldl_push hnames hname.nonempty hlast]

omit h in
theorem component_of_names (h : Names raw name) : component name = some (.normal name) := by
  unfold component
  split
  next => exact absurd rfl h.nonempty
  next => exact absurd rfl h.notCurrent
  next => exact absurd rfl h.notParent
  next => rfl

theorem forall_names : ∀ name ∈ names, ∃ raw, Names raw name := by
  induction h with
  | nil => simp
  | cons hname hnames ih => simpa using ⟨⟨_, hname⟩, ih⟩

/-- Decoded names are the components of the path they are joined to. -/
theorem components_of_names
    (hne : names ≠ []) : components (['/'].intercalate names) = names.map .normal := by
  have hnames := forall_names h
  have hsplit : (['/'].intercalate names).splitOn '/' = names :=
    List.splitOn_intercalate '/'
      (fun name hname => (hnames name hname).elim fun _ h => h.slash_notMem) hne
  have hcomponents : names.filterMap component = names.map .normal := by
    rw [← List.filterMap_eq_map]
    exact List.filterMap_congr fun name hname =>
      (hnames name hname).elim fun _ h => component_of_names h
  have hstart : start (['/'].intercalate names) = [] := by
    obtain ⟨name, names, rfl⟩ := List.exists_cons_of_ne_nil hne
    obtain ⟨raw, hname⟩ := hnames name List.mem_cons_self
    have hhead : (['/'].intercalate (name :: names)).head? = name.head? := by
      by_cases hrest : names = []
      · simp [hrest]
      · rw [List.intercalate_cons_of_ne_nil hrest, List.append_assoc,
          List.head?_append_of_ne_nil _ hname.nonempty]
    rw [start, hhead, if_neg, hsplit, if_neg]
    · simpa using hname.notCurrent
    · exact fun hslash => hname.slash_notMem (List.mem_of_mem_head? hslash)
  rw [components, hstart, hsplit, hcomponents, List.nil_append]

omit h

/-! ## The whole path -/

/-- The segments of the prefix; the root has none but the empty one before its slash. -/
def RoutePrefix.segments (mount : RoutePrefix) : List (List Char) :=
  if mount.value = ['/'] then [[]] else mount.value.splitOn '/'

theorem rawRelative_eq_some_iff {mount : RoutePrefix} :
    rawRelative mount.value path = some raw ↔
      path.splitOn '/' = mount.segments ++ raw.splitOn '/' := by
  have hjoin : ∀ start : List Char, path = start ++ '/' :: raw ↔
      path.splitOn '/' = start.splitOn '/' ++ raw.splitOn '/' := by
    intro start
    rw [← List.splitOn_append_cons_self]
    refine ⟨fun h => by rw [h], fun h => ?_⟩
    simpa using congrArg ['/'].intercalate h
  have hdrop : ∀ start l l' : List Char, l.dropPrefix? start = some l' ↔ l = start ++ l' := by
    simp [List.dropPrefix?_eq_some_iff]
  unfold rawRelative RoutePrefix.segments
  split
  · rw [hdrop]
    exact hjoin []
  · rw [← hjoin, Option.bind_eq_some_iff]
    constructor
    · rintro ⟨rest, hrest, hraw⟩
      rw [(hdrop _ _ _).mp hrest, (hdrop _ _ _).mp hraw]
      rfl
    · intro h
      exact ⟨'/' :: raw, (hdrop _ _ _).mpr h, (hdrop _ _ _).mpr rfl⟩

theorem pushSegments_splitOn [Percent.Decoder]
    (hlength : (bytes raw).length ≤ maxStaticFilePathBytes) :
    pushSegments 0 [] (raw.splitOn '/') = .ok path ↔
      ∃ names, List.Forall₂ Names (raw.splitOn '/') names ∧ path = ['/'].intercalate names := by
  rw [pushSegments_ok_iff]
  · refine exists_congr fun names => and_congr_right fun hnames => ?_
    rw [foldl_push_nil hnames]
  · intro _
    rw [List.intercalate_splitOn]
    simpa [separatorBytes] using hlength

theorem components_of_segments (hraws : raws ≠ []) (hnames : List.Forall₂ Names raws names) :
    components (['/'].intercalate names) = names.map .normal :=
  components_of_names hnames fun hnil => hraws (List.forall₂_nil_right_iff.mp (hnil ▸ hnames))

/-- A path is returned for exactly the requests below the prefix whose segments all stand for names.
The names are then the components of the path. -/
theorem requestRelativePath_ok_iff [Percent.Decoder] (mount : RoutePrefix)
    (target path : List Char) :
    (requestRelativePath target mount.value = .ok path ↔
      ∃ raws names, raws ≠ [] ∧ (pathOf target).splitOn '/' = mount.segments ++ raws ∧
        (bytes (['/'].intercalate raws)).length ≤ maxStaticFilePathBytes ∧
        List.Forall₂ Names raws names ∧ path = ['/'].intercalate names) ∧
    ∀ raws names, raws ≠ [] → List.Forall₂ Names raws names →
      components (['/'].intercalate names) = names.map .normal := by
  refine ⟨⟨?_, ?_⟩, fun raws names => components_of_segments⟩
  · fun_cases requestRelativePath target mount.value with
    | case5 raw hraw hne hlength relative hpushed =>
      rintro ⟨⟩
      obtain ⟨names, hnames, rfl⟩ := (pushSegments_splitOn (Nat.not_lt.mp hlength)).mp hpushed
      have hsplit := List.splitOn_ne_nil '/' raw
      refine ⟨raw.splitOn '/', names, hsplit, rawRelative_eq_some_iff.mp hraw, ?_, hnames, rfl⟩
      rw [List.intercalate_splitOn]
      exact Nat.not_lt.mp hlength
    | _ => nofun
  · rintro ⟨raws, names, hne, hpath, hlength, hnames, rfl⟩
    have hsplit : (['/'].intercalate raws).splitOn '/' = raws :=
      List.splitOn_intercalate '/' (fun raw hraw => Delimiter.notMem_of_mem_splitOn
        (hpath ▸ List.mem_append_right _ hraw)) hne
    have hraw := rawRelative_eq_some_iff.mpr (hsplit.symm ▸ hpath)
    have hempty : (['/'].intercalate raws).isEmpty = false := by
      by_contra hempty
      rw [Bool.not_eq_false, List.isEmpty_iff] at hempty
      rw [hempty, List.splitOn_nil] at hsplit
      subst hsplit
      cases hnames with
      | cons hname _ => exact hname.raw_ne_nil rfl
    have hpushed := (pushSegments_splitOn hlength).mpr ⟨names, hsplit.symm ▸ hnames, rfl⟩
    simp [requestRelativePath, hraw, hempty, Nat.not_lt.mpr hlength, hpushed,
      components_of_segments hne hnames]

open scoped Percent.Lenient

def rootMount : RoutePrefix := ⟨['/'], by decide⟩

theorem encodes_letters (n : Nat) :
    Percent.Encodes (bytes (List.replicate n 'a')) (bytes (List.replicate n 'a')) := by
  induction n with
  | zero => exact .nil
  | succ n ih => exact .plain (by decide) ih

theorem length_letters (n : Nat) : (bytes (List.replicate n 'a')).length = n := by
  induction n with
  | zero => rfl
  | succ n ih => exact congrArg (· + 1) ih

theorem names_letters {n : Nat} (hn : 2 < n) :
    Names (List.replicate n 'a') (List.replicate n 'a') := by
  refine ⟨encodes_letters n, ?_, ?_, ?_, fun c hc => ?_⟩
  · exact fun h => by simp [← List.length_eq_zero_iff] at h; omega
  · exact fun h => by have := congrArg List.length h; simp at this; omega
  · exact fun h => by have := congrArg List.length h; simp at this; omega
  · rw [List.eq_of_mem_replicate hc]
    decide

theorem pathOf_letters (n : Nat) :
    pathOf ('/' :: List.replicate n 'a') = '/' :: List.replicate n 'a' := by
  have hletters : (List.replicate n 'a').takeWhile (· != '?') = List.replicate n 'a' := by
    simp
  rw [pathOf, List.takeWhile_cons_of_pos (by decide), hletters]

/-- A name may be too long. -/
theorem requestRelativePath_of_long_name : ∃ raw : List Char,
    (pathOf ('/' :: raw)).splitOn '/' = rootMount.segments ++ [raw] ∧ Names raw raw ∧
      requestRelativePath ('/' :: raw) rootMount.value =
        .error (.pathTooLong maxStaticFilePathBytes) := by
  obtain ⟨n, hn⟩ : ∃ n, maxStaticFilePathBytes < n := ⟨_, Nat.lt_succ_self _⟩
  have hraw : rawRelative rootMount.value ('/' :: List.replicate n 'a') =
      some (List.replicate n 'a') := by
    simp [rawRelative, rootMount, List.dropPrefix?_eq_some_iff]
  have hslash : '/' ∉ List.replicate n 'a' := by simp
  have hlong : 2 < n := by
    unfold maxStaticFilePathBytes at hn
    omega
  refine ⟨List.replicate n 'a', ?_, names_letters hlong, ?_⟩
  · rw [pathOf_letters, rawRelative_eq_some_iff.mp hraw, List.splitOn_eq_singleton hslash]
  · have hempty : (List.replicate n 'a').isEmpty = false := by
      cases n with
      | zero => omega
      | succ n => rfl
    simp [requestRelativePath, pathOf_letters, hraw, hempty, length_letters, hn]

end Lily.WebCore.StaticFile
