/-
StorageKeys.lean

The keys of the file storage.  A key is normalised lexically, and a key that leaves the
storage is refused.  A user's names are put below `users/<owner>`, where the owner is the
percent-encoded identity; the files of a run are put below its directory.

Both put a text in front of a name and normalise the whole once more.  This second pass sees
white space that the first one left at the end, an owner that is a dot segment, and for the
files of a run a name that nothing has normalised before.
-/
import OpenAgency.FilePolicy

namespace OpenAgency

open Lexical FilePolicy List

namespace Storage

/-! ### Paths -/

/-- The segment that stands for the parent. -/
def dotdot : List Char := ['.', '.']

/-- The segments that `os.path.normpath` looks at. -/
def pathSteps (path : List Char) : List (List Char) :=
  (path.splitOn '/').filter fun step => step ≠ [] ∧ step ≠ ['.']

/-- The slashes that `os.path.normpath` keeps in front. -/
def initialSlashes : List Char → ℕ
  | '/' :: '/' :: '/' :: _ => 1
  | '/' :: '/' :: _ => 2
  | '/' :: _ => 1
  | _ => 0

/-- `os.path.normpath`. -/
def normpath (path : List Char) : List Char :=
  let steps :=
    if initialSlashes path = 0 then normalizeRelative dotdot (pathSteps path)
    else normalize dotdot (pathSteps path)
  let normal := List.replicate (initialSlashes path) '/' ++ ['/'].intercalate steps
  if normal = [] then ['.'] else normal

/-- `os.path.join`. -/
def joinPaths (a b : List Char) : List Char :=
  if b.head? = some '/' then b
  else if a = [] ∨ a.getLast? = some '/' then a ++ b
  else a ++ '/' :: b

/-- What two lists start with. -/
def commonPrefix : List (List Char) → List (List Char) → List (List Char)
  | a :: as, b :: bs => if a = b then a :: commonPrefix as bs else []
  | _, _ => []

/-- `os.path.commonpath` of two absolute paths. -/
def commonpath (a b : List Char) : List Char :=
  '/' :: ['/'].intercalate (commonPrefix (pathSteps a) (pathSteps b))

/-- A segment of a path. -/
structure IsStep (step : List Char) : Prop where
  ne_nil : step ≠ []
  ne_dot : step ≠ ['.']
  slash : '/' ∉ step

/-- Where the storage stands, `os.path.realpath(LOCAL_STORAGE_PATH)`. -/
structure StorageRoot where
  steps : List (List Char)
  areSteps : ∀ step ∈ steps, IsStep step
  noParent : dotdot ∉ steps

/-- `local_storage_root()`. -/
def StorageRoot.path (root : StorageRoot) : List Char := '/' :: ['/'].intercalate root.steps

/-! ### Keys -/

/-- `_normalize_local_storage_key`. -/
def normalizeLocalStorageKey (key : String) : Except String (List Char) :=
  let normalized := forwardSlashes (strip key).toList
  if normalized = [] then .error "Storage key must not be empty"
  else if normalized.head? = some '/' then .error "Absolute paths are not allowed"
  else
    let clean := normpath normalized
    if clean = ['.'] ∨ clean = [] then .error "Storage key must reference a file path"
    else if clean = dotdot ∨ (dotdot ++ ['/']).isPrefixOf clean then
      .error "Path traversal is not allowed"
    else .ok clean

/-- `get_local_file_path`, where the path is resolved lexically. -/
def getLocalFilePath (root : StorageRoot) (key : List Char) : Except String (List Char) := do
  let normalizedKey ← normalizeLocalStorageKey (String.ofList key)
  let target := normpath (joinPaths root.path normalizedKey)
  if commonpath root.path target = root.path then pure target
  else throw "Path traversal outside local storage root is not allowed"

/-- A hexadecimal digit, in upper case. -/
def hexDigit (n : ℕ) : Char := (Nat.digitChar n).toUpper

/-- The characters that `quote` leaves alone. -/
def isAlwaysSafe (c : Char) : Bool := c.isAlphanum || c = '_' || c = '.' || c = '-' || c = '~'

/-- `quote` of one byte, with no further safe characters. -/
def quoteByte (b : UInt8) : List Char :=
  if isAlwaysSafe (Char.ofNat b.toNat) then [Char.ofNat b.toNat]
  else ['%', hexDigit (b.toNat / 16), hexDigit (b.toNat % 16)]

/-- `quote(text, safe="")`. -/
def quote (text : String) : List Char := text.toUTF8.data.toList.flatMap quoteByte

/-- The directory of a user. -/
def userPrefix (userId : String) : List Char := "users/".toList ++ quote (strip userId)

/-- `user_scoped_storage_key`. -/
def userScopedStorageKey (userId key : String) : Except String (List Char) :=
  if strip userId = "" then .error "Storage owner must not be empty"
  else (normalizeLocalStorageKey key).map fun normalizedKey =>
    userPrefix userId ++ '/' :: normalizedKey

/-! ### Uploads -/

/-- `workflow_run_directory`. -/
def workflowRunDirectory (userId workflowId processId : String) : List Char :=
  "user_".toList ++ userId.toList ++ "/workflow_".toList ++ workflowId.toList ++
    "/run_".toList ++ processId.toList

/-- A file that a caller hands over: the path of a file, something to read from, raw bytes, or
anything else. -/
inductive UploadFile
  | path (file : String)
  | readable (name : Option String)
  | bytes
  | other

/-- What an upload takes from the file system: which files exist, and the error of a copy, if
there is one. -/
structure LocalFiles where
  isFile : String → Bool
  copyError : UploadFile → List Char → Option String

/-- `os.path.basename`. -/
def basename (file : List Char) : List Char := file.rtakeWhile (· ≠ '/')

/-- `os.path.splitext(name)[1]` is not empty. -/
def hasExtension (name : List Char) : Bool := '.' ∈ (basename name).dropWhile (· = '.')

/-- The name under which a file is stored. -/
def uploadName (env : LocalFiles) (fileNames : List String) (idx : ℕ) :
    UploadFile → Except String (List Char)
  | .path file => if env.isFile file then .ok (basename file.toList) else .error "Invalid file path"
  | .readable name =>
    let fileName := (name.getD "uploaded_file").toList
    .ok (if hasExtension fileName then fileName else fileName ++ ".bin".toList)
  | .bytes =>
    match fileNames[idx]? with
    | some fileName => .ok fileName.toList
    | none => .error "File name must be provided for raw bytes uploads."
  | .other => .error "Unsupported file type"

/-- The result of `upload_to_s3`, and the paths it writes to. -/
structure UploadResult where
  uploadedFiles : List (List Char) := []
  failedFiles : List (UploadFile × String) := []
  written : List (List Char) := []

/-- The turn of `upload_to_s3` for one file, in local mode. -/
def uploadFile (env : LocalFiles) (root : StorageRoot) (directory : List Char)
    (fileNames : List String) (result : UploadResult) (file : UploadFile × ℕ) : UploadResult :=
  match uploadName env fileNames file.2 file.1 with
  | .error message => { result with failedFiles := result.failedFiles ++ [(file.1, message)] }
  | .ok fileName =>
    match getLocalFilePath root (joinPaths directory fileName) with
    | .error message => { result with failedFiles := result.failedFiles ++ [(file.1, message)] }
    | .ok target =>
      let result := { result with written := result.written ++ [target] }
      match env.copyError file.1 target with
      | some message => { result with failedFiles := result.failedFiles ++ [(file.1, message)] }
      | none => { result with
          uploadedFiles := result.uploadedFiles ++ [joinPaths directory fileName] }

/-- `upload_to_s3`, in local mode. -/
def uploadToS3 (env : LocalFiles) (root : StorageRoot) (workflowId processId userId : String)
    (files : List UploadFile) (fileNames : List String) : UploadResult :=
  files.zipIdx.foldl
    (uploadFile env root (workflowRunDirectory userId workflowId processId) fileNames) {}

/-! ### Segments -/

section Steps

variable {a b : List Char} {steps : List (List Char)}

theorem pathSteps_append_cons (a b : List Char) :
    pathSteps (a ++ '/' :: b) = pathSteps a ++ pathSteps b := by
  unfold pathSteps
  rw [splitOn_append_cons_self, filter_append]

theorem pathSteps_nil : pathSteps [] = [] := rfl

theorem pathSteps_cons (b : List Char) : pathSteps ('/' :: b) = pathSteps b :=
  pathSteps_append_cons [] b

theorem pathSteps_of_notMem (h : '/' ∉ a) :
    pathSteps a = if a ≠ [] ∧ a ≠ ['.'] then [a] else [] := by
  unfold pathSteps
  rw [splitOn_eq_singleton h]
  by_cases hstep : a ≠ [] ∧ a ≠ ['.']
  · rw [if_pos hstep, filter_eq_self]
    intro step hmem
    rw [List.mem_singleton.mp hmem]
    exact decide_eq_true hstep
  · rw [if_neg hstep, filter_eq_nil_iff]
    intro step hmem hkept
    rw [List.mem_singleton.mp hmem] at hkept
    exact hstep (of_decide_eq_true hkept)

theorem IsStep.pathSteps_eq (h : IsStep a) : pathSteps a = [a] := by
  rw [pathSteps_of_notMem h.slash, if_pos ⟨h.ne_nil, h.ne_dot⟩]

variable {step : List Char}

theorem isStep_of_mem_pathSteps (h : step ∈ pathSteps a) : IsStep step := by
  obtain ⟨hmem, hstep⟩ := List.mem_filter.mp h
  obtain ⟨hnil, hdot⟩ := of_decide_eq_true hstep
  exact ⟨hnil, hdot, notMem_of_mem_splitOn hmem⟩

theorem subset_of_mem_pathSteps (h : step ∈ pathSteps a) : step ⊆ a := by
  obtain ⟨front, back, rfl, -⟩ := isSegment_of_mem_splitOn (List.mem_filter.mp h).1
  intro c hc
  exact mem_append_left _ (mem_append_right _ hc)

theorem pathSteps_intercalate (h : ∀ step ∈ steps, IsStep step) :
    pathSteps (['/'].intercalate steps) = steps := by
  induction steps with
  | nil => rfl
  | cons step steps ih =>
    have hstep := h step mem_cons_self
    rcases steps with - | ⟨next, rest⟩
    · rw [intercalate_singleton, hstep.pathSteps_eq]
    · have hrest := ih fun step hmem => h step (mem_cons_of_mem _ hmem)
      rw [intercalate_cons_cons, append_assoc, singleton_append,
        pathSteps_append_cons, hrest, hstep.pathSteps_eq, singleton_append]

theorem pathSteps_joinPaths (hb : b.head? ≠ some '/') :
    pathSteps (joinPaths a b) = pathSteps a ++ pathSteps b := by
  unfold joinPaths
  rw [if_neg hb]
  split_ifs with hends
  · rcases hends with rfl | hslash
    · rfl
    · obtain ⟨front, rfl⟩ : ∃ front, a = front ++ ['/'] := List.getLast?_eq_some_iff.mp hslash
      have hfront := pathSteps_append_cons front []
      rw [pathSteps_nil, append_nil] at hfront
      rw [hfront, append_assoc, singleton_append, pathSteps_append_cons]
  · exact pathSteps_append_cons a b

theorem pathSteps_replicate (n : ℕ) (b : List Char) :
    pathSteps (List.replicate n '/' ++ b) = pathSteps b := by
  induction n with
  | zero => rfl
  | succ n ih => rw [replicate_succ, cons_append, pathSteps_cons, ih]

theorem initialSlashes_eq_zero_iff : initialSlashes a = 0 ↔ a.head? ≠ some '/' := by
  rcases a with - | ⟨c, rest⟩
  · exact ⟨fun _ h => absurd h (by simp), fun _ => rfl⟩
  · by_cases hc : c = '/'
    · subst hc
      refine ⟨fun h => ?_, fun h => absurd rfl h⟩
      unfold initialSlashes at h
      split at h <;> simp_all
    · refine ⟨fun _ h => hc (Option.some.inj h), fun _ => ?_⟩
      unfold initialSlashes
      split <;> simp_all

theorem isStep_normalizeRelative (h : step ∈ normalizeRelative dotdot (pathSteps a)) :
    IsStep step :=
  isStep_of_mem_pathSteps (normalizeRelative_subset _ h)

theorem isStep_normalize (h : step ∈ normalize dotdot (pathSteps a)) : IsStep step :=
  isStep_of_mem_pathSteps (normalize_subset _ h)

/-- The segments of a normal relative path. -/
theorem pathSteps_normpath (h : a.head? ≠ some '/') :
    pathSteps (normpath a) = normalizeRelative dotdot (pathSteps a) := by
  have hsteps := pathSteps_intercalate fun step (hmem : step ∈ normalizeRelative dotdot (pathSteps a)) =>
    isStep_normalizeRelative hmem
  have hzero := initialSlashes_eq_zero_iff.mpr h
  unfold normpath
  simp only [hzero, if_true, replicate_zero, nil_append]
  split_ifs with hnil
  · rw [hnil, pathSteps_nil] at hsteps
    rw [← hsteps]
    rfl
  · exact hsteps

/-- The segments of a normal absolute path. -/
theorem pathSteps_normpath_absolute (h : a.head? = some '/') :
    pathSteps (normpath a) = normalize dotdot (pathSteps a) := by
  have hsteps := pathSteps_intercalate fun step (hmem : step ∈ normalize dotdot (pathSteps a)) =>
    isStep_normalize hmem
  have hpos : initialSlashes a ≠ 0 := fun hzero => initialSlashes_eq_zero_iff.mp hzero h
  have hne : List.replicate (initialSlashes a) '/' ++
      ['/'].intercalate (normalize dotdot (pathSteps a)) ≠ [] := by
    intro hnil
    exact hpos ((replicate_eq_nil_iff _).mp (List.append_eq_nil_iff.mp hnil).1)
  unfold normpath
  simp only [if_neg hpos, if_neg hne]
  rw [pathSteps_replicate, hsteps]

end Steps

/-! ### What a normalised key is -/

section Keys

variable {root : StorageRoot} {clean target : List Char}

/-- A normalised key: segments that name files and directories, and nothing else. -/
structure Clean (clean : List Char) : Prop where
  ne_nil : pathSteps clean ≠ []
  noParent : dotdot ∉ pathSteps clean
  join : ['/'].intercalate (pathSteps clean) = clean
  relative : clean.head? ≠ some '/'
  backslash : '\\' ∉ clean

theorem mem_intercalate {c : Char} {steps : List (List Char)} (h : c ∈ ['/'].intercalate steps) :
    c = '/' ∨ ∃ step ∈ steps, c ∈ step := by
  induction steps with
  | nil => exact absurd h not_mem_nil
  | cons step steps ih =>
    rcases steps with - | ⟨next, rest⟩
    · rw [intercalate_singleton] at h
      exact .inr ⟨step, mem_cons_self, h⟩
    · rw [intercalate_cons_cons, mem_append, mem_append] at h
      rcases h with (h | h) | h
      · exact .inr ⟨step, mem_cons_self, h⟩
      · exact .inl (List.mem_singleton.mp h)
      · refine (ih h).imp_right fun hmem => ?_
        obtain ⟨step', hstep', hc⟩ := hmem
        exact ⟨step', mem_cons_of_mem _ hstep', hc⟩

theorem head?_intercalate {steps : List (List Char)} (h : ∀ step ∈ steps, IsStep step) :
    (['/'].intercalate steps).head? ≠ some '/' := by
  rcases steps with - | ⟨step, rest⟩
  · exact fun hhead => by cases hhead
  · have hstep := h step mem_cons_self
    obtain ⟨c, chars, rfl⟩ := exists_cons_of_ne_nil hstep.ne_nil
    have hhead : (['/'].intercalate ((c :: chars) :: rest)).head? = some c := by
      rcases rest with - | ⟨next, rest⟩
      · rw [intercalate_singleton]
        rfl
      · rw [intercalate_cons_cons]
        rfl
    rw [hhead]
    intro heq
    exact hstep.slash (Option.some.inj heq ▸ mem_cons_self)

theorem backslash_forwardSlashes (path : List Char) : '\\' ∉ forwardSlashes path := by
  intro hmem
  obtain ⟨c, -, hc⟩ := List.mem_map.mp hmem
  split_ifs at hc with hback
  · exact absurd hc (by decide)
  · exact hback hc

variable {path : List Char}

theorem forwardSlashes_of_notMem (h : '\\' ∉ path) : forwardSlashes path = path := by
  refine (map_congr_left fun c hc => ?_).trans (map_id path)
  have hne : c ≠ '\\' := fun heq => h (heq ▸ hc)
  exact if_neg hne

theorem forwardSlashes_append_cons (a b : List Char) :
    forwardSlashes (a ++ '/' :: b) = forwardSlashes a ++ '/' :: forwardSlashes b := by
  unfold forwardSlashes
  rw [map_append, map_cons]
  rfl

/-- **A key that is accepted** is normalised. -/
theorem clean_of_ok {key : String} (h : normalizeLocalStorageKey key = .ok clean) :
    Clean clean ∧
      pathSteps clean =
        normalizeRelative dotdot (pathSteps (forwardSlashes (strip key).toList)) := by
  unfold normalizeLocalStorageKey at h
  dsimp only at h
  split_ifs at h with hempty habsolute hdot hup
  obtain rfl := Except.ok.inj h
  clear h
  obtain ⟨hdot, hnil⟩ := not_or.mp hdot
  obtain ⟨hdotdot, hbegins⟩ := not_or.mp hup
  have hback := backslash_forwardSlashes (strip key).toList
  revert hdot hnil hdotdot hbegins habsolute hback
  generalize forwardSlashes (strip key).toList = path
  intro habsolute hdot hnil hdotdot hbegins hback
  have hsteps := pathSteps_normpath habsolute
  have hare : ∀ step ∈ normalizeRelative dotdot (pathSteps path), IsStep step :=
    fun step hmem => isStep_normalizeRelative hmem
  have hpath : normpath path = ['/'].intercalate (normalizeRelative dotdot (pathSteps path)) := by
    have hzero := initialSlashes_eq_zero_iff.mpr habsolute
    unfold normpath at hdot ⊢
    simp only [hzero, if_true, replicate_zero, nil_append] at hdot ⊢
    split_ifs at hdot ⊢ with hjoin
    · exact absurd rfl hdot
    · rfl
  refine ⟨⟨?_, ?_, ?_, ?_, ?_⟩, hsteps⟩
  · rw [hsteps]
    intro hnone
    rw [hnone] at hpath
    exact hnil hpath
  · rw [hsteps]
    obtain ⟨n, below, hbelow, hshape⟩ : ∃ n below, dotdot ∉ below ∧
        normalizeRelative dotdot (pathSteps path) = List.replicate n dotdot ++ below :=
      normalizeRelative_shape _
    rcases n with - | n
    · rw [hshape]
      exact hbelow
    · -- the first segment would stand for the parent
      rw [hshape, replicate_succ, cons_append] at hpath
      rcases hrest : List.replicate n dotdot ++ below with - | ⟨next, rest⟩
      · rw [hrest, intercalate_singleton] at hpath
        exact absurd hpath hdotdot
      · rw [hrest, intercalate_cons_cons] at hpath
        rw [hpath] at hbegins
        exact absurd (List.isPrefixOf_iff_prefix.mpr (prefix_append _ _)) hbegins
  · rw [hsteps, hpath]
  · rw [hpath]
    exact head?_intercalate hare
  · rw [hpath]
    intro hmem
    rcases mem_intercalate hmem with hslash | ⟨step, hstep, hc⟩
    · exact absurd hslash (by decide)
    · exact hback (subset_of_mem_pathSteps (normalizeRelative_subset _ hstep) hc)

theorem StorageRoot.pathSteps_path (root : StorageRoot) : pathSteps root.path = root.steps := by
  rw [StorageRoot.path, pathSteps_cons]
  exact pathSteps_intercalate root.areSteps

theorem StorageRoot.head?_joinPaths (root : StorageRoot) (hpath : path.head? ≠ some '/') :
    (joinPaths root.path path).head? = some '/' := by
  unfold joinPaths
  rw [if_neg hpath]
  split_ifs <;> rfl

/-- A path below the root, resolved. -/
theorem StorageRoot.pathSteps_resolve (root : StorageRoot) (hpath : path.head? ≠ some '/') {n : ℕ}
    {below : List (List Char)} (hbelow : dotdot ∉ below)
    (hsteps : normalizeRelative dotdot (pathSteps path) = List.replicate n dotdot ++ below) :
    pathSteps (normpath (joinPaths root.path path)) =
      root.steps.take (root.steps.length - n) ++ below := by
  rw [pathSteps_normpath_absolute (root.head?_joinPaths hpath), pathSteps_joinPaths hpath,
    root.pathSteps_path]
  exact normalize_append_relative root.noParent hbelow hsteps

/-- A local path lies below the root, by the segments of its key. -/
theorem getLocalFilePath_ok {key : List Char} (h : getLocalFilePath root key = .ok target) :
    ∃ clean, normalizeLocalStorageKey (String.ofList key) = .ok clean ∧
      target = normpath (joinPaths root.path clean) ∧
      pathSteps target = root.steps ++ pathSteps clean := by
  obtain ⟨clean, hclean, h⟩ := bind_eq_ok.mp h
  dsimp only at h
  split_ifs at h
  obtain rfl := Except.ok.inj h
  obtain ⟨hspec, -⟩ := clean_of_ok hclean
  have hsteps := root.pathSteps_resolve (n := 0) hspec.relative hspec.noParent
    (normalizeRelative_eq_self hspec.noParent)
  rw [Nat.sub_zero, take_length] at hsteps
  exact ⟨clean, hclean, rfl, hsteps⟩

theorem rdropWhile_append_slash (front path : List Char) :
    (front ++ '/' :: path).rdropWhile isStripSpace =
      front ++ '/' :: path.rdropWhile isStripSpace := by
  have hslash : ¬ isStripSpace '/' = true := by decide
  rw [List.rdropWhile, List.rdropWhile, reverse_append, reverse_cons, append_assoc,
    singleton_append, dropWhile_append]
  split_ifs with hall
  · rw [List.isEmpty_iff.mp hall, dropWhile_cons, if_neg hslash]
    simp
  · simp

/-- Behind a text that starts with a letter and a slash, only the end is stripped. -/
theorem toList_strip_slash {c : Char} (hc : isStripSpace c = false) (front path : List Char) :
    (strip (String.ofList (c :: front ++ '/' :: path))).toList =
      c :: front ++ '/' :: path.rdropWhile isStripSpace := by
  have hneg : ¬ isStripSpace c = true := by
    rw [hc]
    exact Bool.false_ne_true
  rw [toList_strip, String.toList_ofList, cons_append, dropWhile_cons, if_neg hneg,
    ← cons_append, rdropWhile_append_slash]

/-- A key that is accepted is relative. -/
theorem relative_of_ok {key : List Char}
    (h : normalizeLocalStorageKey (String.ofList key) = .ok clean) : key.head? ≠ some '/' := by
  intro hhead
  obtain ⟨rest, rfl⟩ : ∃ rest, key = '/' :: rest := by
    rcases key with - | ⟨c, rest⟩
    · cases hhead
    · exact ⟨rest, congrArg (· :: rest) (Option.some.inj hhead)⟩
  have hslash : ¬ isStripSpace '/' = true := by decide
  have hstrip : forwardSlashes (strip (String.ofList ('/' :: rest))).toList =
      '/' :: forwardSlashes (rest.rdropWhile isStripSpace) := by
    have htrim := rdropWhile_append_slash [] rest
    rw [nil_append, nil_append] at htrim
    rw [toList_strip, String.toList_ofList, dropWhile_cons, if_neg hslash, htrim]
    rfl
  unfold normalizeLocalStorageKey at h
  dsimp only at h
  split_ifs at h with hempty habsolute
  apply habsolute
  rw [hstrip]
  rfl

end Keys

end Storage

end OpenAgency
