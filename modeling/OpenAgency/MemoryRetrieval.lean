/-
MemoryRetrieval.lean

The calls of `MemoryService` that read: the queries of the repository, the ranking of what
they find, and the calls that put several queries together.

A float is the rational it stands for; how the platform rounds is a parameter, as are
`ILIKE` and the distance that the vector index computes.
-/
import Mathlib.Data.Prod.Lex
import OpenAgency.MemoryService
import OpenAgency.Lib.Selection

namespace OpenAgency

open Relational Selection

structure ChannelIdentityMapping where
  internalUserId : String
  trusted : Bool := true

/-- What the calls that read take from elsewhere; the clock stands still. -/
structure MemoryRetrieval extends MemoryContext where
  /-- `value ILIKE '%text%'`. -/
  ilike : String → String → Bool
  /-- The database has a vector index. -/
  postgres : Bool
  /-- `embedding_vector <=> query_vector`, unless it raises. -/
  distance : List ℚ → List ℚ → Option ℚ
  memoryVectorRetrievalEnabled : Bool
  /-- `find_by_channel_identity`. -/
  findByChannelIdentity : ConversationChannelType → String → Option ChannelIdentityMapping
  now : Time
  /-- The float nearest to a rational. -/
  round : ℚ → ℚ
  /-- `x ** 0.5`. -/
  sqrt : ℚ → ℚ

/-! ### Queries -/

/-- The filters of a query; an empty list or `none` filters nothing. -/
structure MemoryQuery where
  scopes : List String := []
  userId : Option String := none
  workspaceId : Option String := none
  conversationId : Option String := none
  workflowId : Option String := none
  agentId : Option String := none
  source : Option String := none
  memoryTypes : List String := []
  tags : List String := []
  statuses : List String := []
  sourceConversationId : Option String := none
  sourceExecutionId : Option String := none
  summaryDateFrom : Option Time := none
  summaryDateTo : Option Time := none
  text : Option String := none

/-- The condition `column == value` of a filter that may be missing. -/
def equalsIfSet (filter column : Option String) : Bool := filter.isNone || column = filter

/-- A condition on a list of admitted values, unless it is empty. -/
def amongIfSet (admitted : List String) (value : Option String) : Bool :=
  admitted.isEmpty || value.any (· ∈ admitted)

namespace MemoryRetrieval

variable (r : MemoryRetrieval)

def matchesText (text : Option String) (m : MemoryFields) : Bool :=
  match text with
  | none => true
  | some text => strip text = "" || r.ilike (strip text) m.content ||
      m.summary.any (r.ilike (strip text))

/-- The conditions of a query. -/
def admits (f : MemoryQuery) (m : MemoryFields) : Bool :=
  amongIfSet f.scopes (some m.scope.value) && equalsIfSet f.userId m.createdByUserId &&
    equalsIfSet f.workspaceId m.workspaceId && equalsIfSet f.conversationId m.conversationId &&
    equalsIfSet f.workflowId m.workflowId && equalsIfSet f.agentId m.agentId &&
    equalsIfSet f.source m.source &&
    amongIfSet f.memoryTypes (m.memoryType.map Graph.MemoryType.value) &&
    f.tags.all (· ∈ m.tags) && amongIfSet f.statuses (some m.status.value) &&
    equalsIfSet f.sourceConversationId m.sourceConversationId &&
    equalsIfSet f.sourceExecutionId m.sourceExecutionId &&
    f.summaryDateFrom.all (fun first => m.summaryDate.any (first ≤ ·)) &&
    f.summaryDateTo.all (fun last => m.summaryDate.any (· ≤ last)) && r.matchesText f.text m

/-- The order of a listing: the last updated first. -/
def updateKey (m : MemoryRecord) : Time ×ₗ String := toLex (m.updatedAt, m.id)

/-- `SQLMemoryRepository.query`. -/
def query (s : MemoryStore) (f : MemoryQuery) (limit : ℤ) : List MemoryRecord :=
  ((sortDesc updateKey s.items).filter fun m => r.admits f m.toMemoryFields).take limit.toNat

/-- The rows that have a vector, as they are listed. -/
def embeddedRows (s : MemoryStore) (f : MemoryQuery) : List MemoryRecord :=
  ((sortDesc updateKey s.items).filter fun m =>
    r.admits { f with text := none } m.toMemoryFields).filter (·.embedding.isSome)

/-- `query_by_embedding`, where an error finds nothing; equally near records come as they
are listed. -/
def queryByEmbedding (s : MemoryStore) (embedding : List ℚ) (f : MemoryQuery) (limit : ℤ) :
    List MemoryRecord :=
  if r.postgres then
    match (r.embeddedRows s f).mapM fun m => (r.distance (m.embedding.getD []) embedding).map (·, m) with
    | none => []
    | some scored => ((scored.insertionSort fun a b => a.1 ≤ b.1).map Prod.snd).take limit.toNat
  else []

/-- `_embed_query`. -/
def embedQuery (text : Option String) : Option (List ℚ) :=
  match text, r.embeddingProfile with
  | some text, some profile =>
    if strip text = "" || !r.memoryVectorRetrievalEnabled then none
    else match r.embedTexts profile [strip text] with
      | .ok (embedding :: _) => some embedding
      | _ => none
  | _, _ => none

/-! ### Ranking -/

def stopwords : List String :=
  ["a", "an", "and", "are", "as", "at", "be", "for", "from", "how", "i", "in", "is", "it", "my",
    "of", "on", "or", "should", "that", "the", "this", "to", "what", "when", "with", "you"]

/-- `_tokens`. -/
def tokens (value : String) : List String :=
  let isTokenChar (c : Char) : Bool := ('a' ≤ c && c ≤ 'z') || ('0' ≤ c && c ≤ '9') || c = '_'
  (((r.lib.lower value).toList.splitOnP fun c => !isTokenChar c).map String.ofList).dedup.filter
    fun token => 2 < token.length && token ∉ stopwords

/-- `" ".join(sorted(tokens))`. -/
def joined (tokens : List String) : String := " ".intercalate (tokens.insertionSort (· ≤ ·))

def scopeWeight : Graph.MemoryScope → ℚ
  | .conversation => 3
  | .user => 5 / 2
  | .workspace => 2
  | .workflow => 3 / 2
  | .global => 1

def typeWeight : Option Graph.MemoryType → ℚ
  | some .taskCommitment => 5 / 2
  | some .decision => 2
  | some .preference => 9 / 5
  | some .fact => 3 / 2
  | some .dailySummary => 1
  | some .contextPack => 9 / 10
  | some .runSummary => 4 / 5
  | some .archive => 2 / 5
  | none => 6 / 5

def statusWeight : Graph.MemoryStatus → ℚ
  | .active => 0
  | .superseded => -3 / 2
  | .archived => -2

/-- `_recency_score`. -/
def recencyScore (updatedAt : Time) : ℚ :=
  let elapsed : ℤ := (r.now : ℤ) - (updatedAt : ℤ)
  let ageDays := max (r.round (r.round ((elapsed : ℚ) / 1000000) / 86400)) 0
  max (r.round (1 - min (r.round (ageDays / 90)) 1)) 0

/-- `sum(a * b for a, b in zip(left, right))`. -/
def dot (left right : List ℚ) : ℚ :=
  (left.zip right).foldl (fun acc p => r.round (acc + r.round (p.1 * p.2))) 0

/-- `_cosine_similarity`. -/
def cosineSimilarity (left right : List ℚ) : ℚ :=
  let length := min left.length right.length
  let left := left.take length
  let right := right.take length
  let leftNorm := r.sqrt (r.dot left left)
  let rightNorm := r.sqrt (r.dot right right)
  if leftNorm = 0 ∨ rightNorm = 0 then 0
  else r.round (r.dot left right / r.round (leftNorm * rightNorm))

/-- What a query adds to a score. -/
def lexicalScore (m : MemoryFields) (text : String) (score : ℚ) : ℚ :=
  let queryTokens := r.tokens text
  let memoryTokens := r.tokens (" ".intercalate [m.content, m.summary.getD "",
    " ".intercalate m.tags,
    r.lib.strOf ((m.metadata.getJson "semantic_hint").orElse (.str ""))])
  if queryTokens = [] ∨ memoryTokens = [] then score
  else
    let overlap := (queryTokens.filter (· ∈ memoryTokens)).length
    let score := r.round (score + r.round (6 * r.round ((overlap : ℚ) / (queryTokens.length : ℚ))))
    if isIn (joined queryTokens) (joined memoryTokens) then r.round (score + 2) else score

/-- `_score`. -/
def score (text : Option String) (embedding : Option (List ℚ)) (m : MemoryRecord) : ℚ :=
  let score := r.round (scopeWeight m.scope + typeWeight m.memoryType)
  let score := r.round (score + statusWeight m.status)
  let score := r.round (score + r.round ((min m.importance 100 : ℕ) / 100))
  let score := r.round (score + r.recencyScore m.updatedAt)
  let score := match embedding, m.embedding with
    | some queryEmbedding, some (x :: xs) =>
      r.round (score + r.round (10 * max (r.cosineSimilarity queryEmbedding (x :: xs)) 0))
    | _, _ => score
  match text with
  | none => score
  | some text => if strip text = "" then score else r.lexicalScore m.toMemoryFields text score

/-- `MemoryRanker.rank`. -/
def rank (memories : List MemoryRecord) (text : Option String) (limit : ℤ)
    (embedding : Option (List ℚ)) : List MemoryRecord :=
  (sortDesc (fun m => toLex (r.score text embedding m, updateKey m)) memories).take limit.toNat

/-! ### Calls -/

variable (user : UserDefinition) (s : MemoryStore)

/-- The memories among these that the user may read. -/
def visible (items : List MemoryRecord) : List MemoryRecord :=
  items.filter fun m => r.canRead m.toMemoryFields (some user)

/-- `_dedupe_memories`. -/
def dedupeMemories (items : List MemoryRecord) : List MemoryRecord :=
  firsts (fun m : MemoryRecord => m.id) [] items

/-- A limit that leaves room for memories that are not visible. -/
def widened (limit : ℤ) : ℤ := max (limit * 4) limit

/-- `list_memories`, its scope among the filters. -/
def listMemories (f : MemoryQuery) (text : Option String) (limit : ℤ) : List MemoryRecord :=
  match r.embedQuery text with
  | some embedding =>
    let items := r.queryByEmbedding s embedding f (widened limit)
    if items.isEmpty then
      r.rank (r.visible user (r.query s { f with text := none } (widened limit))) text limit
        (some embedding)
    else r.rank (r.visible user items) text limit (some embedding)
  | none =>
    r.rank (r.visible user (r.query s { f with text := text } (widened limit))) text limit none

/-- A query of `_collect_agent_candidates`, by the last update and by the distance. -/
def layer (embedding : Option (List ℚ)) (limit : ℤ) (f : MemoryQuery) : List MemoryRecord :=
  r.query s f limit ++
    match embedding with
    | some embedding => r.queryByEmbedding s embedding f limit
    | none => []

/-- The queries of `_collect_agent_candidates`. -/
def agentQueries (agentId workflowId workspaceId userId : Option String) : List MemoryQuery :=
  (if isBlank agentId then [] else [{ agentId := agentId }]) ++
    (if isBlank workflowId then [] else [{ scopes := ["workflow"], workflowId := workflowId }]) ++
    (if isBlank workspaceId then []
      else [{ scopes := ["workspace"], workspaceId := workspaceId }]) ++
    (if isBlank userId then [] else [{ scopes := ["user"], userId := userId }]) ++
    [{ scopes := ["global"] }]

/-- `_collect_agent_candidates`. -/
def collectAgentCandidates (agentId workflowId workspaceId userId : Option String) (limit : ℤ)
    (embedding : Option (List ℚ)) : List MemoryRecord :=
  dedupeMemories
    ((agentQueries agentId workflowId workspaceId userId).flatMap (r.layer s embedding limit))

/-- What the caller of `retrieve_for_agent` asks for of types and statuses. -/
def isSelected (includeTypes excludeStatuses : List String) (memoryType : Option Graph.MemoryType)
    (status : Graph.MemoryStatus) : Bool :=
  amongIfSet includeTypes (memoryType.map Graph.MemoryType.value) && status.value ∉ excludeStatuses

/-- `retrieve_for_agent`. -/
def retrieveForAgent (agentId : String) (text workflowId workspaceId userId : Option String)
    (includeTypes excludeStatuses : List String) (limit : ℤ) : List MemoryRecord :=
  let embedding := r.embedQuery text
  let candidates := r.collectAgentCandidates s (some agentId) workflowId workspaceId userId limit
    embedding
  r.rank ((r.visible user candidates).filter fun m =>
    isSelected includeTypes excludeStatuses m.memoryType m.status) text limit embedding

/-- The date of an instant. -/
def dateOf (t : Time) : Time := t / seconds 86400 * seconds 86400

/-- The query of `list_recent_summaries`. -/
def recentSummaries (conversationId agentId workspaceId userId : Option String) (days : ℤ) :
    MemoryQuery where
  conversationId := conversationId
  agentId := agentId
  workspaceId := workspaceId
  userId := userId
  memoryTypes := ["daily_summary"]
  statuses := ["active"]
  summaryDateFrom := some (dateOf r.now - (days - 1).toNat * seconds 86400)
  summaryDateTo := some (dateOf r.now)

/-- `list_recent_summaries` for its query. -/
def listRecentSummaries (f : MemoryQuery) (limit : ℤ) : List MemoryRecord :=
  (sortDesc (fun m : MemoryRecord => toLex (m.summaryDate.getD 0, updateKey m))
    (r.visible user (r.query s f (widened limit)))).take limit.toNat

/-- `_memory_user_id`. -/
def memoryUserId (conversation : Conversation) : Option String :=
  if !isBlank conversation.createdByUserId then conversation.createdByUserId
  else if conversation.channelType = .api ∨ conversation.channelType = .web then none
  else if isBlank conversation.channelUserId then none
  else match r.findByChannelIdentity conversation.channelType
      (conversation.channelUserId.getD "") with
    | some mapping => if mapping.trusted then some mapping.internalUserId else none
    | none => none

/-- The queries of `retrieve_for_conversation`. -/
def conversationQueries (conversation : Conversation) (agentId : Option String) :
    List MemoryQuery :=
  let userId := r.memoryUserId conversation
  [{ scopes := ["global"] }] ++
    (if isBlank userId then [] else [{ scopes := ["user"], userId := userId }]) ++
    (if isBlank conversation.workspaceId then []
      else [{ scopes := ["workspace"], workspaceId := conversation.workspaceId }]) ++
    [{ scopes := ["conversation"], conversationId := some conversation.id }] ++
    (if isBlank agentId then [] else [{ agentId := agentId }])

def isNoContextPack (m : MemoryRecord) : Bool := m.memoryType ≠ some .contextPack

/-- `retrieve_for_conversation`. -/
def retrieveForConversation (conversation : Conversation) (text agentId : Option String)
    (limit : ℤ) : List MemoryRecord :=
  let found := (dedupeMemories ((r.conversationQueries conversation agentId).flatMap fun f =>
    r.query s f limit)).filter isNoContextPack
  match r.embedQuery text with
  | none => r.rank found text limit none
  | some embedding =>
    let near := r.queryByEmbedding s embedding
      { scopes := ["conversation"], conversationId := some conversation.id } (widened limit)
    r.rank ((dedupeMemories (found ++ near)).filter isNoContextPack) text limit (some embedding)

/-! ### The operational context -/

/-- The loop of `_select_for_operational_layer` over ranked memories. -/
def choose (limit : ℤ) : List String → List MemoryRecord → List MemoryRecord →
    List MemoryRecord × List String
  | selected, chosen, [] => (chosen, selected)
  | selected, chosen, m :: ms =>
    if m.id ∈ selected || m.isSensitive then choose limit selected chosen ms
    else if max limit 0 ≤ (chosen ++ [m]).length then (chosen ++ [m], m.id :: selected)
    else choose limit (m.id :: selected) (chosen ++ [m]) ms

/-- `_select_for_operational_layer`, which leaves sensitive memories out. -/
def selectForOperationalLayer (selected : List String) (items : List MemoryRecord) (limit : ℤ)
    (text : Option String) : List MemoryRecord × List String :=
  choose limit selected [] (r.rank items text (widened limit) none)

structure OperationalContext where
  decisions : List MemoryRecord := []
  commitments : List MemoryRecord := []
  factsAndPreferences : List MemoryRecord := []
  recentSummaries : List MemoryRecord := []
  semanticFallback : List MemoryRecord := []

def OperationalContext.layers (c : OperationalContext) : List (List MemoryRecord) :=
  [c.decisions, c.commitments, c.factsAndPreferences, c.recentSummaries, c.semanticFallback]

/-- The limits of the layers, those of the caller over the defaults. -/
def layerLimits (limitPerLayer : Dict ℤ) : Dict ℤ :=
  Dict.union [("decisions", 4), ("commitments", 4), ("facts_and_preferences", 6),
    ("recent_summaries", 7), ("semantic_fallback", 3)] limitPerLayer

def limitOf (limits : Dict ℤ) (key : String) : ℤ := (limits.get? key).getD 0

/-- The memories of some types that are active. -/
def activeOf (types : List (Option Graph.MemoryType)) (items : List MemoryRecord) :
    List MemoryRecord :=
  items.filter fun m => m.status.value = "active" && m.memoryType ∈ types

/-- The layers, each of which leaves out what an earlier one has. -/
def operationalLayers (limits : Dict ℤ) (text : Option String) (embedding : Option (List ℚ))
    (visibleBase summaries : List MemoryRecord) : OperationalContext :=
  let decisions := r.selectForOperationalLayer [] (activeOf [some .decision] visibleBase)
    (limitOf limits "decisions") text
  let commitments := r.selectForOperationalLayer decisions.2
    (activeOf [some .taskCommitment] visibleBase) (limitOf limits "commitments") text
  let facts := r.selectForOperationalLayer commitments.2
    (activeOf [some .fact, some .preference, none] visibleBase)
    (limitOf limits "facts_and_preferences") text
  let recent := r.selectForOperationalLayer facts.2
    (dedupeMemories (summaries ++ activeOf [some .dailySummary] visibleBase))
    (limitOf limits "recent_summaries") none
  let fallback := limitOf limits "semantic_fallback"
  let semantic := r.selectForOperationalLayer recent.2
    (r.rank visibleBase text (widened fallback) embedding) fallback none
  { decisions := decisions.1, commitments := commitments.1, factsAndPreferences := facts.1,
    recentSummaries := recent.1, semanticFallback := semantic.1 }

/-- How many memories each query of `retrieve_operational_context` may find. -/
def baseLimit (limits : Dict ℤ) : ℤ := max ((limits.map Prod.snd).sum * 4) 20

/-- The candidates of `retrieve_operational_context`. -/
def baseCandidates (conversation : Option Conversation)
    (agentId workflowId workspaceId userId : Option String) (limit : ℤ)
    (embedding : Option (List ℚ)) : List MemoryRecord :=
  let candidates := r.collectAgentCandidates s agentId workflowId workspaceId userId limit embedding
  match conversation with
  | none => candidates
  | some conversation =>
    dedupeMemories (candidates ++ r.query s
      { scopes := ["conversation"], conversationId := some conversation.id } limit)

/-- The user and the workspace of `retrieve_operational_context`: given, or else those of
the conversation. -/
def resolvedUserId (conversation : Option Conversation) (userId : Option String) :
    Option String :=
  userId <|> conversation.bind r.memoryUserId

def resolvedWorkspaceId (conversation : Option Conversation) (workspaceId : Option String) :
    Option String :=
  workspaceId <|> conversation.bind fun c => c.workspaceId

/-- The query for summaries in `retrieve_operational_context`. -/
def operationalSummaries (conversation : Option Conversation)
    (agentId workspaceId userId : Option String) : MemoryQuery :=
  match conversation with
  | some conversation => r.recentSummaries (some conversation.id) none none none 7
  | none => r.recentSummaries none agentId workspaceId userId 7

/-- `retrieve_operational_context`. -/
def retrieveOperationalContext (conversation : Option Conversation)
    (agentId workflowId workspaceId userId text : Option String) (limitPerLayer : Dict ℤ) :
    OperationalContext :=
  let limits := layerLimits limitPerLayer
  let userId := r.resolvedUserId conversation userId
  let workspaceId := resolvedWorkspaceId conversation workspaceId
  if agentId.isNone && conversation.isNone then {}
  else
    let embedding := r.embedQuery text
    let base := r.baseCandidates s conversation agentId workflowId workspaceId userId
      (baseLimit limits) embedding
    r.operationalLayers limits text embedding ((r.visible user base).filter isNoContextPack)
      (r.listRecentSummaries user s (r.operationalSummaries conversation agentId workspaceId userId)
        (limitOf limits "recent_summaries"))

end MemoryRetrieval

/-! ### All calls that read -/

inductive MemoryRead where
  | listMemories (scope : Option String) (filter : MemoryQuery) (text : Option String) (limit : ℤ)
  | retrieveForAgent (agentId : String) (text workflowId workspaceId userId : Option String)
      (includeTypes excludeStatuses : List String) (limit : ℤ)
  | listRecentSummaries (conversationId agentId workspaceId userId : Option String)
      (days limit : ℤ)
  | retrieveOperationalContext (conversation : Option Conversation)
      (agentId workflowId workspaceId userId text : Option String) (limitPerLayer : Dict ℤ)
  | retrieveForConversation (conversation : Conversation) (text agentId : Option String)
      (limit : ℤ)

/-- The filters of `list_memories`. -/
def MemoryQuery.inScope (f : MemoryQuery) (scope : Option String) : MemoryQuery :=
  { f with scopes := if isBlank scope then [] else [scope.getD ""] }

/-- The lists a call returns: one, or one for each layer. -/
def MemoryRetrieval.read (r : MemoryRetrieval) (user : UserDefinition) (s : MemoryStore) :
    MemoryRead → List (List MemoryRecord)
  | .listMemories scope f text limit => [r.listMemories user s (f.inScope scope) text limit]
  | .retrieveForAgent agentId text workflowId workspaceId userId includeTypes excludeStatuses
      limit =>
      [r.retrieveForAgent user s agentId text workflowId workspaceId userId includeTypes
        excludeStatuses limit]
  | .listRecentSummaries conversationId agentId workspaceId userId days limit =>
    [r.listRecentSummaries user s
      (r.recentSummaries conversationId agentId workspaceId userId days) limit]
  | .retrieveOperationalContext conversation agentId workflowId workspaceId userId text
      limitPerLayer =>
      (r.retrieveOperationalContext user s conversation agentId workflowId workspaceId userId text
        limitPerLayer).layers
  | .retrieveForConversation conversation text agentId limit =>
    [r.retrieveForConversation s conversation text agentId limit]

end OpenAgency
