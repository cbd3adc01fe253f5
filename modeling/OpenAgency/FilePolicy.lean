/-
FilePolicy.lean

The policy for text files an agent writes.  Five checks each contribute a rule to the
verdict: a base folder and a filename are given, the path they lead to lies under an
allowlisted directory, the filename names no blocked path, the content holds no secret,
and the actor is approved.  The writer then resolves the base folder and the filename
once more and refuses to leave the folder.

Paths are resolved lexically.  The list of blocked paths is a parameter; the one of the
source is `pathRules`.  Only the filename is compared with it: what the base folder is
made of is never looked at.
-/
import OpenAgency.Domain.Basic
import OpenAgency.Lib.Lexical

namespace OpenAgency

open Lexical

/-! ### Blocked paths -/

structure PathBlockRule where
  patterns : List String
  reason : String
  pathParts : List String := []
  basenamePrefixes : List String := []

def sensitivePathRules : List PathBlockRule := [
  { patterns := [".env", ".env.*"]
    reason := "reading .env files is blocked"
    basenamePrefixes := [".env."] },
  { patterns := ["**/.ssh/**"]
    reason := "reading SSH credentials is blocked"
    pathParts := [".ssh"] },
  { patterns := ["**/.aws/**"]
    reason := "reading AWS credentials is blocked"
    pathParts := [".aws"] },
  { patterns := ["**/.git/**"]
    reason := "reading git internals is blocked"
    pathParts := [".git"] },
  { patterns := ["**/secrets/**"]
    reason := "reading secrets directories is blocked"
    pathParts := ["secrets"] }]

def editOnlyPathRules : List PathBlockRule := [
  { patterns := ["**/node_modules/**"]
    reason := "editing node_modules is blocked"
    pathParts := ["node_modules"] }]

/-- The rules with `include_edit_only`. -/
def pathRules : List PathBlockRule := sensitivePathRules ++ editOnlyPathRules

/-- The path parts the rules block. -/
def blockedParts (rules : List PathBlockRule) : List (List Char) :=
  rules.flatMap fun rule => rule.pathParts.map (·.toList)

namespace FilePolicy

/-! ### Shell patterns -/

inductive GlobToken where
  | anyRun
  | anyOne
  | literal (c : Char)
  | oneOf (negated : Bool) (ranges : List (Char × Char))

/-- The ranges of `[a-z0-9_]`. -/
def globRanges : List Char → List (Char × Char)
  | a :: '-' :: b :: rest => (a, b) :: globRanges rest
  | a :: rest => (a, a) :: globRanges rest
  | [] => []

/-- The members of a set and what follows its closing bracket.  A bracket that comes first
is a member. -/
def globSet : List Char → Option (List Char × List Char)
  | [] => none
  | c :: rest =>
    match rest.dropWhile (· ≠ ']') with
    | [] => none
    | _ :: after => some (c :: rest.takeWhile (· ≠ ']'), after)

/-- `fnmatch.translate`; the first argument bounds the length of the pattern. -/
def globTokens : ℕ → List Char → List GlobToken
  | 0, _ | _, [] => []
  | n + 1, '*' :: rest => .anyRun :: globTokens n rest
  | n + 1, '?' :: rest => .anyOne :: globTokens n rest
  | n + 1, '[' :: rest =>
    let negated := rest.head? = some '!'
    match globSet (if negated then rest.drop 1 else rest) with
    | none => .literal '[' :: globTokens n rest
    | some (members, after) => .oneOf negated (globRanges members) :: globTokens n after
  | n + 1, c :: rest => .literal c :: globTokens n rest

def globMatch : List GlobToken → List Char → Bool
  | [], name => name.isEmpty
  | .anyRun :: tokens, name => name.tails.any (globMatch tokens)
  | .anyOne :: tokens, _ :: name => globMatch tokens name
  | .literal c :: tokens, d :: name => c = d && globMatch tokens name
  | .oneOf negated ranges :: tokens, d :: name =>
    (ranges.any fun r => r.1 ≤ d && d ≤ r.2) != negated && globMatch tokens name
  | _ :: _, [] => false

/-- `fnmatch.fnmatch` on a system whose file names are case sensitive. -/
def fnmatch (name : List Char) (pattern : String) : Bool :=
  globMatch (globTokens pattern.toList.length pattern.toList) name

/-! ### Blocked filenames -/

/-- `s.strip(chars)`. -/
def stripWhere (remove : Char → Bool) (s : List Char) : List Char :=
  ((s.dropWhile remove).reverse.dropWhile remove).reverse

/-- The characters of `strip("()[]\x7b\x7d<>,:;")`. -/
def isPunctuation (c : Char) : Bool := c ∈ "()[]\x7b\x7d<>,:;".toList

def isQuote (c : Char) : Bool := c = '\'' || c = '"'

/-- Remove the quotes around a text. -/
def unquote (s : List Char) : List Char :=
  if s.head?.any isQuote && s.getLast?.any isQuote && 2 ≤ s.length then (s.drop 1).dropLast
  else s

/-- `path.replace("\\", "/")`. -/
def forwardSlashes (path : List Char) : List Char := path.map fun c => if c = '\\' then '/' else c

/-- `_normalize_path_candidate`. -/
def normalizePathCandidate (path : List Char) : List Char :=
  (unquote (stripWhere isPunctuation (stripWhere isStripSpace (forwardSlashes path)))).dropWhile
    (· = '/')

/-- The parts of a normalised path. -/
def pathParts (normalizedPath : List Char) : List (List Char) :=
  (normalizedPath.splitOn '/').filter (· ≠ [])

/-- `_matches_rule`. -/
def matchesRule (normalizedPath : List Char) (rule : PathBlockRule) : Bool :=
  let parts := pathParts normalizedPath
  (parts.any fun part => part ∈ rule.pathParts.map (·.toList)) ||
    (parts.getLast?.any fun name =>
      name = ".env".toList || rule.basenamePrefixes.any fun p => p.toList.isPrefixOf name) ||
    rule.patterns.any fun pattern =>
      fnmatch normalizedPath pattern || fnmatch ('/' :: normalizedPath) pattern

/-- `blocked_path_reason`. -/
def blockedPathReason (rules : List PathBlockRule) (path : List Char) : Option String :=
  let normalized := normalizePathCandidate path
  if normalized = [] then none
  else (rules.find? (matchesRule normalized)).map (·.reason)

/-- `path_blocked`. -/
def pathBlocked (rules : List PathBlockRule) (path : List Char) : Bool :=
  (blockedPathReason rules path).isSome

/-! ### Paths -/

/-- A `pathlib` path: its parts are not empty and not `.`. -/
structure PurePath where
  absolute : Bool
  parts : List (List Char)

/-- `Path(text)`. -/
def parsePath (text : List Char) : PurePath where
  absolute := text.head? = some '/'
  parts := (text.splitOn '/').filter fun part => part ≠ [] && part ≠ ['.']

/-- What resolving a path takes from the process: its working directory, and what `~` and
`~user` stand for where a home directory is known. -/
structure PathEnv where
  cwd : List (List Char)
  home : List Char → Option PurePath

/-- `Path.expanduser`, which raises if there is no home directory. -/
def expandUser (env : PathEnv) (path : PurePath) : Option PurePath :=
  match path.parts with
  | user :: rest =>
    if !path.absolute && user.head? = some '~' then
      (env.home user).map fun home => { home with parts := home.parts ++ rest }
    else some path
  | [] => some path

/-- `base / path`. -/
def joinPath (base path : PurePath) : PurePath :=
  if path.absolute then path else { base with parts := base.parts ++ path.parts }

/-- `Path.resolve`. -/
def resolvePath (env : PathEnv) (path : PurePath) : List (List Char) :=
  normalize ['.', '.'] (if path.absolute then path.parts else env.cwd ++ path.parts)

/-- `_resolve_target_path`. -/
def resolveTargetPath (env : PathEnv) (baseFolder filename : List Char) :
    Option (List (List Char)) :=
  if baseFolder = [] ∨ filename = [] then none
  else (expandUser env (parsePath baseFolder)).map fun base =>
    resolvePath env (joinPath base (parsePath filename))

/-! ### The verdict -/

inductive RuleOutcome where
  | ok
  | warn
  | deny
  deriving DecidableEq

structure PolicyRuleResult where
  id : String
  outcome : RuleOutcome
  reason : Option String := none

structure PolicyVerdict where
  score : ℕ
  rules : List PolicyRuleResult

/-- The `base_folder`, `filename` and `content` of the payload. -/
structure FileWritePayload where
  baseFolder : String
  filename : String
  content : String

/-- `str(path)` of a resolved path. -/
def showPath (path : List (List Char)) : String :=
  "/" ++ "/".intercalate (path.map String.ofList)

/-- The resolved directories of the allowlist. -/
def allowedRoots (env : PathEnv) (allowedDirs : List String) :
    Except RuntimeException (List (List (List Char))) :=
  allowedDirs.mapM fun dir =>
    match expandUser env (parsePath dir.toList) with
    | some path => .ok (resolvePath env path)
    | none => .error ⟨.runtimeError, "Could not determine home directory."⟩

/-- `_allowed_path`. -/
def allowedPath (env : PathEnv) (target : Option (List (List Char))) (allowedDirs : List String)
    (ruleId : String) : Except RuntimeException PolicyRuleResult :=
  match target with
  | none => .ok { id := ruleId, outcome := .deny, reason := some "target path is invalid" }
  | some path => do
    let roots ← allowedRoots env allowedDirs
    if roots.any (·.isPrefixOf path) then
      return { id := ruleId, outcome := .ok, reason := some "target path is allowlisted" }
    return {
      id := ruleId
      outcome := .deny
      reason := some s!"target path is not under an allowlisted directory: {showPath path}" }

/-- `_dangerous_file_path`. -/
def dangerousFilePath (rules : List PathBlockRule) (filename : String) : PolicyRuleResult :=
  if filename ≠ "" && pathBlocked rules filename.toList then
    { id := "file-write-safe-path"
      outcome := .deny
      reason := some s!"blocked path: {filename}" }
  else { id := "file-write-safe-path", outcome := .ok }

/-- The letters that one ASCII letter stands for with `re.IGNORECASE`. -/
def foldCase (c : Char) : Char :=
  if 'A' ≤ c && c ≤ 'Z' then Char.ofNat (c.toNat + 32)
  else if c.toNat = 0x17f then 's'
  else if c.toNat = 0x212a then 'k'
  else if c.toNat = 0x130 || c.toNat = 0x131 then 'i'
  else c

/-- The texts of `DENY_CONTENT_PATTERNS`, and whether `\s*=` follows. -/
def denyContentPatterns : List (String × Bool) :=
  [("openai_api_key", true), ("aws_secret_access_key", true), ("private key", false)]

/-- `pattern.search(content)`. -/
def searchContent (pattern : String × Bool) (content : List Char) : Bool :=
  content.tails.any fun rest =>
    ((rest.take pattern.1.toList.length).map foldCase = pattern.1.toList) &&
      (!pattern.2 || ((rest.drop pattern.1.toList.length).dropWhile isStripSpace).head? = some '=')

/-- `_likely_secret_content`. -/
def likelySecretContent (content : String) : PolicyRuleResult :=
  if denyContentPatterns.any (searchContent · content.toList) then
    { id := "file-write-no-secrets"
      outcome := .deny
      reason := some "content contains a high-risk secret-like pattern" }
  else { id := "file-write-no-secrets", outcome := .ok }

/-- The approval of the actor. -/
def approvalContext (actor : Option String) : PolicyRuleResult :=
  if actor.any fun a => "approved/".toList.isPrefixOf a.toList then
    { id := "file-write-approval-context", outcome := .ok, reason := some "actor is approved" }
  else
    { id := "file-write-approval-context"
      outcome := .deny
      reason := some "file write requires an explicitly approved actor context" }

/-- The base folder and the filename are given. -/
def targetRequired (payload : FileWritePayload) : PolicyRuleResult :=
  if payload.baseFolder = "" ∨ payload.filename = "" then
    { id := "file-target-required"
      outcome := .deny
      reason := some "base_folder and filename are required for contract-backed file writes" }
  else { id := "file-target-required", outcome := .ok }

/-- The rules with their score. -/
def verdictOf (results : List PolicyRuleResult) : PolicyVerdict where
  score := (results.map fun rule =>
    match rule.outcome with | .deny => 100 | .warn => 25 | .ok => 0).sum
  rules := results

/-- `evaluate_file_write_text_policy`. -/
def evaluateFileWriteTextPolicy (env : PathEnv) (rules : List PathBlockRule)
    (payload : FileWritePayload) (allowedDirs : List String) (actor : Option String) :
    Except RuntimeException PolicyVerdict := do
  let target := resolveTargetPath env payload.baseFolder.toList payload.filename.toList
  let allowed ← allowedPath env target allowedDirs "file-write-allowlist"
  return verdictOf [targetRequired payload, allowed, dangerousFilePath rules payload.filename,
    likelySecretContent payload.content, approvalContext actor]

/-- The path `write_text_file` writes to, unless it lies outside the base folder. -/
def writtenPath (env : PathEnv) (baseFolder filename : List Char) : Option (List (List Char)) :=
  (expandUser env (parsePath baseFolder)).bind fun base =>
    let folder := resolvePath env base
    let path := resolvePath env (joinPath ⟨true, folder⟩ (parsePath filename))
    if folder.isPrefixOf path then some path else none

end FilePolicy

end OpenAgency
