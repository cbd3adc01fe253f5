/-
FileWriteSafety.lean

How far the file-write policy protects blocked paths.  A file that is written lies under
an allowlisted directory, and consists of the parts of its base folder and some parts of
its filename.  The policy compares only the filename, after normalising it, with the
blocked parts.  For a list of plain parts, such as the one of the source, the filename's
own parts are all seen, so what is left open is the base folder.
-/
import OpenAgency.FilePolicy

namespace OpenAgency

open Lexical

namespace FilePolicy

variable {env : PathEnv} {rules : List PathBlockRule} {allowedDirs : List String}
  {baseFolder filename : String}

/-! ### What is promised -/

/-- Some allowlisted directory contains the path. -/
def Allowlisted (env : PathEnv) (allowedDirs : List String) (path : List (List Char)) : Prop :=
  ∃ roots, allowedRoots env allowedDirs = .ok roots ∧ ∃ root ∈ roots, root <+: path

/-- A verdict without a deny rule means that a file is only written under an allowlisted
directory and below no blocked path part. -/
def PolicySound (env : PathEnv) (rules : List PathBlockRule) (allowedDirs : List String)
    (baseFolder filename : String) : Prop :=
  ∀ content actor verdict,
    evaluateFileWriteTextPolicy env rules ⟨baseFolder, filename, content⟩ allowedDirs actor =
      .ok verdict →
    (∀ rule ∈ verdict.rules, rule.outcome ≠ .deny) →
    ∀ path, writtenPath env baseFolder.toList filename.toList = some path →
      Allowlisted env allowedDirs path ∧ ∀ part ∈ path, part ∉ blockedParts rules

/-- The path is written, and the checks of its target, of the allowlist and of the filename
pass. -/
structure Passes (env : PathEnv) (rules : List PathBlockRule) (allowedDirs : List String)
    (baseFolder filename : String) (path : List (List Char)) : Prop where
  base : baseFolder ≠ ""
  name : filename ≠ ""
  written : writtenPath env baseFolder.toList filename.toList = some path
  allowed : Allowlisted env allowedDirs path
  unblocked : pathBlocked rules filename.toList = false

/-- The resolved base folder. -/
def resolvedFolder (env : PathEnv) (baseFolder : String) : List (List Char) :=
  ((expandUser env (parsePath baseFolder.toList)).map (resolvePath env)).getD []

/-- The parts the check of the filename looks at. -/
def checkedParts (filename : String) : List (List Char) :=
  pathParts (normalizePathCandidate filename.toList)

/-! ### The path written -/

variable {path : List (List Char)}

/-- The writer and the policy resolve the same path. -/
theorem resolveTargetPath_eq (hbase : baseFolder ≠ "") (hname : filename ≠ "")
    (h : writtenPath env baseFolder.toList filename.toList = some path) :
    resolveTargetPath env baseFolder.toList filename.toList = some path := by
  rw [writtenPath, Option.bind_eq_some_iff] at h
  obtain ⟨base, hexpand, hpath⟩ := h
  have hne : ¬ (baseFolder.toList = [] ∨ filename.toList = []) := by
    simpa [String.toList_eq_nil_iff] using ⟨hbase, hname⟩
  rw [resolveTargetPath, if_neg hne, hexpand, Option.map_some]
  dsimp only at hpath
  split_ifs at hpath
  rw [← hpath]
  unfold joinPath
  by_cases habsolute : (parsePath filename.toList).absolute = true
  · rw [if_pos habsolute, if_pos habsolute]
  · rw [if_neg habsolute, if_neg habsolute]
    unfold resolvePath
    by_cases hroot : base.absolute = true
    · simp only [if_pos hroot, if_true, normalize_normalize_append]
    · simp only [if_neg hroot, if_true, normalize_normalize_append, List.append_assoc]

/-- The path written lies in the resolved base folder, and consists of the parts of the
folder and of the filename. -/
theorem written_spec (h : writtenPath env baseFolder.toList filename.toList = some path) :
    resolvedFolder env baseFolder ⊆ path ∧ ∀ part ∈ path,
      part ∈ resolvedFolder env baseFolder ∨ part ∈ (parsePath filename.toList).parts := by
  rw [writtenPath, Option.bind_eq_some_iff] at h
  obtain ⟨base, hexpand, hpath⟩ := h
  have hfolder : resolvedFolder env baseFolder = resolvePath env base := by
    rw [resolvedFolder, hexpand]
    rfl
  dsimp only at hpath
  split_ifs at hpath with hprefix
  rw [← Option.some.inj hpath, hfolder]
  refine ⟨(List.isPrefixOf_iff_prefix.mp hprefix).subset, ?_⟩
  intro part hpart
  unfold joinPath at hpart
  by_cases habsolute : (parsePath filename.toList).absolute = true
  · rw [if_pos habsolute, resolvePath, if_pos habsolute] at hpart
    exact .inr (normalize_subset _ hpart)
  · rw [if_neg habsolute, resolvePath, if_pos rfl] at hpart
    have hself : normalize ['.', '.'] (resolvePath env base) = resolvePath env base :=
      normalize_eq_self (not_mem_normalize _)
    rw [← hself]
    exact mem_normalize_append hpart

/-- A filename that passes its check has no blocked part among those looked at. -/
theorem not_blocked_of_checked (h : pathBlocked rules filename.toList = false) {part : List Char}
    (hpart : part ∈ checkedParts filename) : part ∉ blockedParts rules := by
  intro hblocked
  obtain ⟨rule, hrule, hmem⟩ := List.mem_flatMap.mp hblocked
  have hmatch : matchesRule (normalizePathCandidate filename.toList) rule = true := by
    have hany : ((pathParts (normalizePathCandidate filename.toList)).any fun part =>
        part ∈ rule.pathParts.map (·.toList)) = true :=
      List.any_eq_true.mpr ⟨part, hpart, by simpa using hmem⟩
    simp only [matchesRule, hany, Bool.true_or]
  have hne : normalizePathCandidate filename.toList ≠ [] := by
    intro hnil
    rw [checkedParts, hnil] at hpart
    simp [pathParts] at hpart
  rw [pathBlocked, blockedPathReason, if_neg hne, Option.isSome_map, Option.isSome_eq_false_iff,
    Option.isNone_iff_eq_none, List.find?_eq_none] at h
  exact h rule hrule hmatch

/-! ### The verdict -/

theorem evaluate_passes {content : String} {actor : Option String} {verdict : PolicyVerdict}
    (hverdict : evaluateFileWriteTextPolicy env rules ⟨baseFolder, filename, content⟩ allowedDirs
      actor = .ok verdict) (hdeny : ∀ rule ∈ verdict.rules, rule.outcome ≠ .deny)
    (hwritten : writtenPath env baseFolder.toList filename.toList = some path) :
    Passes env rules allowedDirs baseFolder filename path := by
  obtain ⟨allowed, hallowed, hresult⟩ := bind_eq_ok.mp hverdict
  cases hresult
  have htarget := hdeny (targetRequired ⟨baseFolder, filename, content⟩) (by simp [verdictOf])
  have hname := hdeny (dangerousFilePath rules filename) (by simp [verdictOf])
  have hdir := hdeny allowed (by simp [verdictOf])
  have hgiven : baseFolder ≠ "" ∧ filename ≠ "" := by
    by_contra hmissing
    apply htarget
    rw [targetRequired, if_pos (by tauto)]
  rw [resolveTargetPath_eq hgiven.1 hgiven.2 hwritten] at hallowed
  obtain ⟨roots, hroots, hok⟩ := bind_eq_ok.mp hallowed
  refine ⟨hgiven.1, hgiven.2, hwritten, ⟨roots, hroots, ?_⟩, ?_⟩
  · by_contra hnone
    have hany : ¬ roots.any (·.isPrefixOf path) = true := by
      intro hany
      obtain ⟨root, hroot, hprefix⟩ := List.any_eq_true.mp hany
      exact hnone ⟨root, hroot, List.isPrefixOf_iff_prefix.mp hprefix⟩
    rw [if_neg hany] at hok
    cases hok
    exact hdir rfl
  · by_contra hblocked
    apply hname
    rw [dangerousFilePath, if_pos (by simpa [hgiven.2] using hblocked)]

/-- An approved actor with harmless content gets a verdict without a deny rule. -/
theorem passes_evaluate (h : Passes env rules allowedDirs baseFolder filename path) :
    ∃ verdict, evaluateFileWriteTextPolicy env rules ⟨baseFolder, filename, ""⟩ allowedDirs
        (some "approved/") = .ok verdict ∧ ∀ rule ∈ verdict.rules, rule.outcome ≠ .deny := by
  obtain ⟨roots, hroots, root, hroot, hprefix⟩ := h.allowed
  have hany : roots.any (·.isPrefixOf path) = true :=
    List.any_eq_true.mpr ⟨root, hroot, List.isPrefixOf_iff_prefix.mpr hprefix⟩
  have hallowed : allowedPath env (resolveTargetPath env baseFolder.toList filename.toList)
      allowedDirs "file-write-allowlist" = .ok
        { id := "file-write-allowlist", outcome := .ok,
          reason := some "target path is allowlisted" } := by
    rw [resolveTargetPath_eq h.base h.name h.written]
    show (allowedRoots env allowedDirs >>= _) = _
    rw [hroots]
    show (if roots.any (·.isPrefixOf path) then _ else _) = _
    rw [if_pos hany]
    rfl
  have htarget : (targetRequired ⟨baseFolder, filename, ""⟩).outcome = .ok := by
    rw [targetRequired, if_neg (by simpa using ⟨h.base, h.name⟩)]
  have hname : (dangerousFilePath rules filename).outcome = .ok := by
    rw [dangerousFilePath, if_neg (by simp [h.unblocked])]
  have hcontent : (likelySecretContent "").outcome = .ok := by decide
  have hactor : (approvalContext (some "approved/")).outcome = .ok := by decide
  let allowed : PolicyRuleResult := {
    id := "file-write-allowlist", outcome := .ok, reason := some "target path is allowlisted" }
  refine ⟨verdictOf [targetRequired ⟨baseFolder, filename, ""⟩, allowed,
    dangerousFilePath rules filename, likelySecretContent "", approvalContext (some "approved/")],
    ?_, ?_⟩
  · show (allowedPath env _ allowedDirs _ >>= _) = _
    rw [hallowed]
    rfl
  · intro rule hrule
    simp only [verdictOf, List.mem_cons, List.not_mem_nil, or_false] at hrule
    rcases hrule with rfl | rfl | rfl | rfl | rfl
    · rw [htarget]
      decide
    · decide
    · rw [hname]
      decide
    · rw [hcontent]
      decide
    · rw [hactor]
      decide

/-! ### Plain parts -/

/-- Characters the normalisation of a filename removes or rewrites. -/
def isRewritten (c : Char) : Bool :=
  c = '\\' || c = '/' || isStripSpace c || isPunctuation c || isQuote c

/-- Every blocked part is a text that the normalisation of a filename leaves alone. -/
def PlainParts (rules : List PathBlockRule) : Prop :=
  ∀ part ∈ blockedParts rules, part ≠ [] ∧ ∀ c ∈ part, isRewritten c = false

theorem plainParts_pathRules : PlainParts pathRules := by
  have hparts : blockedParts pathRules =
      [".ssh".toList, ".aws".toList, ".git".toList, "secrets".toList, "node_modules".toList] := rfl
  unfold PlainParts
  rw [hparts]
  simp [isRewritten, isStripSpace, isPunctuation, isQuote]

theorem isSegment_unquote {text part : List Char} (h : IsSegment '/' text part) (hne : part ≠ [])
    (hquote : ∀ c ∈ part, isQuote c = false) : IsSegment '/' (unquote text) part := by
  have houtside : ∀ c, isQuote c = true → c ∉ part := by
    intro c hc hmem
    rw [hquote c hmem] at hc
    cases hc
  unfold unquote
  split_ifs with hquoted
  · obtain ⟨first, rest, rfl⟩ : ∃ first rest, text = first :: rest := by
      rcases text with - | ⟨first, rest⟩
      · simp at hquoted
      · exact ⟨first, rest, rfl⟩
    obtain ⟨inner, last, rfl⟩ : ∃ inner last, rest = inner ++ [last] := by
      rcases List.eq_nil_or_concat rest with rfl | ⟨inner, last, rfl⟩
      · simp at hquoted
      · exact ⟨inner, last, by simp⟩
    obtain ⟨hfirst, hlast⟩ : isQuote first = true ∧ isQuote last = true := by
      have hend : (first :: (inner ++ [last])).getLast? = some last := by
        rw [← List.cons_append, List.getLast?_concat]
      rw [hend] at hquoted
      simpa [and_assoc] using hquoted
    have hinner : IsSegment '/' (inner ++ [last]) part := by
      have hrest : IsSegment '/' ([first] ++ (inner ++ [last])) part := h
      refine hrest.trimLeft hne ?_
      simpa using houtside first hfirst
    show IsSegment '/' (List.dropLast (inner ++ [last])) part
    rw [List.dropLast_concat]
    refine hinner.trimRight hne ?_
    simpa using houtside last hlast
  · exact h

/-- The check of a filename sees its plain parts. -/
theorem mem_checkedParts {part : List Char} (h : part ∈ (parsePath filename.toList).parts)
    (hne : part ≠ []) (hplain : ∀ c ∈ part, isRewritten c = false) :
    part ∈ checkedParts filename := by
  have hkept : ∀ c ∈ part, c ≠ '\\' ∧ c ≠ '/' ∧ isStripSpace c = false ∧
      isPunctuation c = false ∧ isQuote c = false := by
    intro c hc
    simpa [isRewritten, and_assoc] using hplain c hc
  have hslash : '/' ∉ part := fun hmem => (hkept _ hmem).2.1 rfl
  have hraw : IsSegment '/' filename.toList part :=
    isSegment_of_mem_splitOn (List.mem_filter.mp h).1
  have hforward : IsSegment '/' (forwardSlashes filename.toList) part := by
    apply hraw.map
    · rfl
    · intro c hc
      rw [if_neg (hkept c hc).1]
  have hstripped := (hforward.dropBoth hne fun c hc => (hkept c hc).2.2.1).dropBoth hne
    fun c hc => (hkept c hc).2.2.2.1
  have hunquoted := isSegment_unquote hstripped hne fun c hc => (hkept c hc).2.2.2.2
  have hnormalized : IsSegment '/' (normalizePathCandidate filename.toList) part := by
    apply hunquoted.dropWhile hne
    intro c hc
    simpa using (hkept c hc).2.1
  exact List.mem_filter.mpr ⟨mem_splitOn_of_isSegment hnormalized hslash, by simpa using hne⟩

/-! ### What the policy leaves open -/

/-- **The file-write policy is sound up to the base folder.**  It keeps its promise exactly
if, whenever a file is written and the checks of its target, the allowlist and the filename
pass, no part of the resolved base folder is blocked and every blocked part of the filename
that stays in the path is one the check of the filename looks at.  For plain blocked parts
the condition on the base folder is enough. -/
theorem policySound_iff (env : PathEnv) (rules : List PathBlockRule) (allowedDirs : List String)
    (baseFolder filename : String) :
    (PolicySound env rules allowedDirs baseFolder filename ↔
      ∀ path, Passes env rules allowedDirs baseFolder filename path →
        (∀ part ∈ resolvedFolder env baseFolder, part ∉ blockedParts rules) ∧
        ∀ part ∈ (parsePath filename.toList).parts, part ∈ path → part ∈ blockedParts rules →
          part ∈ checkedParts filename) ∧
    (PlainParts rules → (PolicySound env rules allowedDirs baseFolder filename ↔
      ∀ path, Passes env rules allowedDirs baseFolder filename path →
        ∀ part ∈ resolvedFolder env baseFolder, part ∉ blockedParts rules)) := by
  have hsound : PolicySound env rules allowedDirs baseFolder filename ↔
      ∀ path, Passes env rules allowedDirs baseFolder filename path →
        (∀ part ∈ resolvedFolder env baseFolder, part ∉ blockedParts rules) ∧
        ∀ part ∈ (parsePath filename.toList).parts, part ∈ path → part ∈ blockedParts rules →
          part ∈ checkedParts filename := by
    constructor
    · intro h path hpasses
      obtain ⟨verdict, hverdict, hdeny⟩ := passes_evaluate hpasses
      obtain ⟨-, hclean⟩ := h "" _ verdict hverdict hdeny path hpasses.written
      refine ⟨fun part hpart => hclean part ((written_spec hpasses.written).1 hpart), ?_⟩
      intro part _ hpath hblocked
      exact absurd hblocked (hclean part hpath)
    · intro h content actor verdict hverdict hdeny path hwritten
      have hpasses := evaluate_passes hverdict hdeny hwritten
      obtain ⟨hfolder, hname⟩ := h path hpasses
      refine ⟨hpasses.allowed, fun part hpath hblocked => ?_⟩
      rcases (written_spec hwritten).2 part hpath with hpart | hpart
      · exact hfolder part hpart hblocked
      · have hchecked := hname part hpart hpath hblocked
        exact not_blocked_of_checked hpasses.unblocked hchecked hblocked
  refine ⟨hsound, fun hplain => ?_⟩
  rw [hsound]
  constructor
  · intro h path hpasses
    exact (h path hpasses).1
  · intro h path hpasses
    refine ⟨h path hpasses, fun part hpart _ hblocked => ?_⟩
    obtain ⟨hne, hkept⟩ := hplain part hblocked
    exact mem_checkedParts hpart hne hkept

/-! ### A file below `.git` -/

/-- A process in the root directory, with no home directory. -/
def rootEnv : PathEnv where
  cwd := []
  home _ := none

/-- A note in `/work` is protected. -/
theorem policySound_note : PolicySound rootEnv pathRules ["/work"] "/work" "note" := by
  refine ((policySound_iff rootEnv pathRules ["/work"] "/work" "note").2
    plainParts_pathRules).mpr ?_
  rintro path -
  have hfolder : resolvedFolder rootEnv "/work" = ["work".toList] := by decide +kernel
  rw [hfolder]
  decide +kernel

theorem passes_config : Passes rootEnv pathRules ["/work"] "/work/.git" "config"
    ["work".toList, ".git".toList, "config".toList] where
  base := by decide
  name := by decide
  written := by decide +kernel
  allowed := ⟨[["work".toList]], rfl, ["work".toList], by simp, by simp⟩
  unblocked := by decide +kernel

/-- Nothing in the policy looks at the base folder `/work/.git`. -/
theorem policy_misses_folder :
    ¬ ∀ env allowedDirs baseFolder filename,
      PolicySound env pathRules allowedDirs baseFolder filename := by
  intro h
  obtain ⟨verdict, hverdict, hdeny⟩ := passes_evaluate passes_config
  obtain ⟨-, hclean⟩ := h rootEnv ["/work"] "/work/.git" "config" "" _ verdict hverdict hdeny _
    passes_config.written
  refine hclean ".git".toList (by simp) ?_
  decide +kernel

end FilePolicy

end OpenAgency
