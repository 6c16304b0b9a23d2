import ChallengeForge.DocumentChunks
import ChallengeForge.DoubleRounding
import ChallengeForge.IngestionStore
import ChallengeForge.LikePattern
import Mathlib.Algebra.Order.Ring.Rat

/-!
# Lexical retrieval

`retrieve` over the chunks of succeeded jobs, in its three versions.  What
PostgreSQL supplies (the full-text match and rank, the text of a heading path,
the case folding of `ILIKE`) is a parameter.  Scores are the values of doubles; the
structural version adds its boosts as doubles, one after the other.

The structural version splices the query into a pattern as it is.

* `retrieveStruct_real` — a query without pattern characters returns and boosts
  real matches only;
* `struct_real_iff` — and only such a query does so whatever is stored.
-/

namespace ChallengeForge

/-- What the database supplies. -/
structure TextSearch where
  matchesEnglish : List Char → DocumentChunkRow → Bool
  rankEnglish : List Char → DocumentChunkRow → Rat
  matchesSimple : List Char → DocumentChunkRow → Bool
  rankSimple : List Char → DocumentChunkRow → Rat
  headingText : List (List Char) → List Char
  lower : Char → Char

/-- What a search is restricted to. -/
structure RetrievalFilters where
  submissionId : Option UUID := none
  artifactKey : Option ArtifactKey := none
  ingestionJobId : Option UUID := none

/-- A result, with what it cites. -/
structure RetrievedChunk where
  chunkId : UUID
  ingestionJobId : UUID
  submissionId : UUID
  artifactKey : ArtifactKey
  ordinal : Nat
  content : List Char
  score : Rat
  charStart : Nat
  charEnd : Nat
  lineStart : Nat
  lineEnd : Nat
  blockType : String
  headingPath : List (List Char)
  parserVersion : String
  chunkerVersion : String
  retrievalVersion : String
  contentSha256 : String

/-- The tables a retrieval reads. -/
structure RetrievalStore where
  jobs : IngestionJobs
  chunks : DocumentChunks

/-! ## Queries -/

/-- `text.split()`. -/
def splitWords (text : List Char) : List (List Char) :=
  (text.splitOnP isSpace).filter (fun word => word ≠ [])

/-- Light query normalization. -/
def normalizeQuery (query : List Char) : List Char :=
  [' '].intercalate (splitWords (strip query))

example : normalizeQuery "  FOR  UPDATE   SKIP LOCKED ".toList =
    "FOR UPDATE SKIP LOCKED".toList := by
  decide

/-- `_filter_clauses`. -/
def RetrievalFilters.accept (filters : RetrievalFilters) (chunk : DocumentChunkRow) : Bool :=
  filters.submissionId.all (fun id => chunk.submissionId = id) &&
    filters.artifactKey.all (fun key => chunk.artifactKey = key) &&
    filters.ingestionJobId.all (fun id => chunk.ingestionJobId = id)

/-- `_rows_to_results`, of one row. -/
def RetrievedChunk.ofRow (retrievalVersion : String) (score : Rat) (chunk : DocumentChunkRow) :
    RetrievedChunk where
  chunkId := chunk.id
  ingestionJobId := chunk.ingestionJobId
  submissionId := chunk.submissionId
  artifactKey := chunk.artifactKey
  ordinal := chunk.ordinal
  content := chunk.content
  score := score
  charStart := chunk.charStart
  charEnd := chunk.charEnd
  lineStart := chunk.lineStart
  lineEnd := chunk.lineEnd
  blockType := chunk.blockType
  headingPath := chunk.headingPath
  parserVersion := chunk.parserVersion
  chunkerVersion := chunk.chunkerVersion
  retrievalVersion := retrievalVersion
  contentSha256 := chunk.contentSha256

/-- `ORDER BY score DESC, c.id ASC`. -/
def scoreLe (score : DocumentChunkRow → Rat) (a b : DocumentChunkRow) : Prop :=
  score b < score a ∨ score a = score b ∧ a.id ≤ b.id

instance (score : DocumentChunkRow → Rat) : DecidableRel (scoreLe score) := fun _ _ =>
  inferInstanceAs (Decidable (_ ∨ _))

namespace RetrievalStore

/-- `JOIN ingestion_jobs j … WHERE j.status = 'succeeded'`. -/
def searchable (store : RetrievalStore) (chunk : DocumentChunkRow) : Bool :=
  (store.jobs.find? chunk.ingestionJobId).any (fun job => job.status = .succeeded)

/-- The statement the three versions share, up to match and score. -/
def search (store : RetrievalStore) (version : String) (isMatch : DocumentChunkRow → Bool)
    (score : DocumentChunkRow → Rat) (topK : Int) (filters : RetrievalFilters) :
    List RetrievedChunk :=
  ((store.chunks.orderBy (scoreLe score) (fun chunk =>
      store.searchable chunk && isMatch chunk && filters.accept chunk)).take topK.toNat).map
    (fun chunk => .ofRow version (score chunk) chunk)

end RetrievalStore

/-! ## The three versions -/

/-- The characters with a meaning in a `LIKE` pattern. -/
def likeSpecials : Like.Specials Char where
  anySeq := '%'
  anyOne := '_'
  escape := '\\'
  anySeq_ne_anyOne := by decide
  anySeq_ne_escape := by decide
  anyOne_ne_escape := by decide

namespace TextSearch

variable (search : TextSearch)

/-- `_retrieve_fts`. -/
def retrieveFts (store : RetrievalStore) (q : List Char) (topK : Int)
    (filters : RetrievalFilters) : List RetrievedChunk :=
  store.search "cf-lex-fts-1" (search.matchesEnglish q) (search.rankEnglish q) topK filters

/-- `_retrieve_simple`. -/
def retrieveSimple (store : RetrievalStore) (q : List Char) (topK : Int)
    (filters : RetrievalFilters) : List RetrievedChunk :=
  store.search "cf-lex-fts-simple-1" (search.matchesSimple q) (search.rankSimple q) topK filters

/-- `text ILIKE ('%%' || :q || '%%')`. -/
def ilikeQuery (q text : List Char) : Bool :=
  likeSpecials.ilike search.lower text (likeSpecials.padded q)

/-- The boost for the query in the heading path. -/
def headingBoost (q : List Char) (chunk : DocumentChunkRow) : Rat :=
  if search.ilikeQuery q (search.headingText chunk.headingPath) then roundedToPlace (15 / 100)
  else 0

/-- The boost for the query in the content. -/
def contentBoost (q : List Char) (chunk : DocumentChunkRow) : Rat :=
  if search.ilikeQuery q chunk.content then roundedToPlace (10 / 100) else 0

/-- The boost for the query in code. -/
def codeBoost (q : List Char) (chunk : DocumentChunkRow) : Rat :=
  if (chunk.blockType = "code" ∨ chunk.blockType = "code_fence") ∧
      search.ilikeQuery q chunk.content then roundedToPlace (5 / 100)
  else 0

/-- Lexical score and bounded structural boosts: a sum of doubles. -/
def structScore (q : List Char) (chunk : DocumentChunkRow) : Rat :=
  roundedToPlace (roundedToPlace (roundedToPlace
    (search.rankEnglish q chunk + search.headingBoost q chunk) + search.contentBoost q chunk) +
      search.codeBoost q chunk)

/-- The condition of the structural version. -/
def structMatches (q : List Char) (chunk : DocumentChunkRow) : Bool :=
  search.matchesEnglish q chunk || search.ilikeQuery q chunk.content ||
    search.ilikeQuery q (search.headingText chunk.headingPath)

/-- `_retrieve_struct`. -/
def retrieveStruct (store : RetrievalStore) (q : List Char) (topK : Int)
    (filters : RetrievalFilters) : List RetrievedChunk :=
  store.search "cf-lex-fts-struct-1" (search.structMatches q) (search.structScore q) topK filters

/-- Retrieve the top chunks from succeeded ingestion jobs only. -/
def retrieve (store : RetrievalStore) (query : List Char) (topK : Int)
    (filters : RetrievalFilters) (version : String) : Except String (List RetrievedChunk) :=
  if topK < 1 then .error "top_k must be >= 1"
  else
    let q := normalizeQuery query
    if q = [] then .ok []
    else if version = "cf-lex-fts-simple-1" then .ok (search.retrieveSimple store q topK filters)
    else if version = "cf-lex-fts-struct-1" then .ok (search.retrieveStruct store q topK filters)
    else if version = "cf-lex-fts-1" then .ok (search.retrieveFts store q topK filters)
    else .error ("Unknown retrieval_version: " ++ version)

/-! ## Real matches -/

/-- The query stands in the text as it is, up to case. -/
def Occurs (q text : List Char) : Prop := q.map search.lower <:+: text.map search.lower

instance (q text : List Char) : Decidable (search.Occurs q text) :=
  inferInstanceAs (Decidable (_ <:+: _))

/-- A chunk of a succeeded job within the filters that matches, and is boosted,
only for what it holds. -/
structure RealMatch (store : RetrievalStore) (q : List Char) (filters : RetrievalFilters)
    (chunk : DocumentChunkRow) (row : RetrievedChunk) : Prop where
  stored : chunk ∈ store.chunks
  isRow : row = .ofRow "cf-lex-fts-struct-1" (search.structScore q chunk) chunk
  succeeded : ∃ job ∈ store.jobs, job.id = chunk.ingestionJobId ∧ job.status = .succeeded
  submission : ∀ id ∈ filters.submissionId, chunk.submissionId = id
  artifact : ∀ key ∈ filters.artifactKey, chunk.artifactKey = key
  job : ∀ id ∈ filters.ingestionJobId, chunk.ingestionJobId = id
  isMatch : search.matchesEnglish q chunk = true ∨ search.Occurs q chunk.content ∨
    search.Occurs q (search.headingText chunk.headingPath)
  heading : search.headingBoost q chunk ≠ 0 →
    search.Occurs q (search.headingText chunk.headingPath)
  content : search.contentBoost q chunk ≠ 0 → search.Occurs q chunk.content
  code : search.codeBoost q chunk ≠ 0 → search.Occurs q chunk.content

/-- The characters that a query must not hold. -/
def Plain (q : List Char) : Prop := ∀ c ∈ q, c ≠ '%' ∧ c ≠ '_' ∧ c ≠ '\\'

instance (q : List Char) : Decidable (Plain q) := List.decidableBAll _ q

variable {search} {store : RetrievalStore} {q : List Char} {topK : Int}
  {filters : RetrievalFilters} {chunk : DocumentChunkRow} {row : RetrievedChunk}

/-- A plain query holds no character with a meaning in a pattern. -/
theorem plain_iff : Plain q ↔ ∀ c ∈ q, ¬ likeSpecials.IsSpecial c := by
  simp only [Plain, Like.Specials.IsSpecial, likeSpecials, not_or]

/-- A plain query matches where it occurs, up to case. -/
theorem ilikeQuery_iff (hfolds : likeSpecials.Folds search.lower) (hplain : Plain q)
    {text : List Char} : search.ilikeQuery q text = true ↔ search.Occurs q text :=
  Like.Specials.ilike_padded_iff hfolds (plain_iff.mp hplain)

end TextSearch

/-- Only chunks of succeeded jobs are searched. -/
theorem RetrievalStore.succeeded_of_searchable {store : RetrievalStore}
    {chunk : DocumentChunkRow} (h : store.searchable chunk = true) :
    ∃ job ∈ store.jobs, job.id = chunk.ingestionJobId ∧ job.status = .succeeded := by
  obtain ⟨job, hfind, hstatus⟩ := (Option.any_eq_true _ _).mp h
  obtain ⟨hmem, hid⟩ := Keyed.Table.find?_eq_some_iff.mp hfind
  exact ⟨job, hmem, hid, of_decide_eq_true hstatus⟩

/-- A chunk is accepted when every filter that is set agrees. -/
theorem RetrievalFilters.accept_iff {filters : RetrievalFilters} {chunk : DocumentChunkRow} :
    filters.accept chunk = true ↔
      (∀ id ∈ filters.submissionId, chunk.submissionId = id) ∧
        (∀ key ∈ filters.artifactKey, chunk.artifactKey = key) ∧
        ∀ id ∈ filters.ingestionJobId, chunk.ingestionJobId = id := by
  simp [accept, Option.all_eq_true, and_assoc]

namespace TextSearch

variable {search : TextSearch} {store : RetrievalStore} {q : List Char} {topK : Int}
  {filters : RetrievalFilters} {chunk : DocumentChunkRow} {row : RetrievedChunk}

/-- For a plain query the structural version matches what it should. -/
theorem structMatches_iff (hfolds : likeSpecials.Folds search.lower) (hplain : Plain q) :
    search.structMatches q chunk = true ↔
      search.matchesEnglish q chunk = true ∨ search.Occurs q chunk.content ∨
        search.Occurs q (search.headingText chunk.headingPath) := by
  rw [structMatches, Bool.or_eq_true, Bool.or_eq_true, ilikeQuery_iff hfolds hplain,
    ilikeQuery_iff hfolds hplain, or_assoc]

/-- A plain query returns and boosts real matches only. -/
theorem retrieveStruct_real (hfolds : likeSpecials.Folds search.lower) (hplain : Plain q)
    (hrow : row ∈ search.retrieveStruct store q topK filters) :
    ∃ chunk, search.RealMatch store q filters chunk row := by
  obtain ⟨chunk, hchunk, rfl⟩ := List.mem_map.mp hrow
  obtain ⟨hstored, hpass⟩ := Keyed.Table.mem_orderBy.mp (List.mem_of_mem_take hchunk)
  rw [Bool.and_eq_true, Bool.and_eq_true] at hpass
  obtain ⟨⟨hsearchable, hmatch⟩, haccept⟩ := hpass
  obtain ⟨hsubmission, hartifact, hjob⟩ := RetrievalFilters.accept_iff.mp haccept
  have hoccurs : ∀ text, search.ilikeQuery q text = true → search.Occurs q text :=
    fun _ => (ilikeQuery_iff hfolds hplain).mp
  refine ⟨chunk, hstored, rfl, RetrievalStore.succeeded_of_searchable hsearchable, hsubmission,
    hartifact, hjob, (structMatches_iff hfolds hplain).mp hmatch, ?_, ?_, ?_⟩
  · intro hboost
    exact hoccurs _ (ite_ne_right_iff.mp hboost).1
  · intro hboost
    exact hoccurs _ (ite_ne_right_iff.mp hboost).1
  · intro hboost
    exact hoccurs _ (ite_ne_right_iff.mp hboost).1.2

/-- A call that reaches the structural version. -/
theorem retrieve_struct (store : RetrievalStore) {query : List Char} (htopK : ¬ topK < 1)
    (hquery : normalizeQuery query ≠ []) (filters : RetrievalFilters) :
    search.retrieve store query topK filters "cf-lex-fts-struct-1" =
      .ok (search.retrieveStruct store (normalizeQuery query) topK filters) := by
  simp [retrieve, htopK, hquery]

end TextSearch

/-! ## A store with one chunk -/

namespace RetrievalStore

/-- A chunk with that content, of the job below. -/
def chunkOf (content : List Char) : DocumentChunkRow where
  ordinal := 0
  content := content
  contentSha256 := ""
  charStart := 0
  charEnd := content.length
  lineStart := 1
  lineEnd := 1
  blockType := "paragraph"
  headingPath := []
  oversizedSplit := false
  id := 3
  ingestionJobId := 2
  submissionId := 1
  artifactKey := ⟨4, 5, 6, ".md"⟩
  parserVersion := "cf-parse-2"
  chunkerVersion := "cf-chunk-hybrid-1"
  createdAt := 0

/-- A job that succeeded. -/
def succeededJob : IngestionJobRow where
  id := 2
  submissionId := 1
  artifactKey := ⟨4, 5, 6, ".md"⟩
  status := .succeeded
  attemptCount := 1
  workerId := none
  availableAt := 0
  startedAt := some 0
  completedAt := some 0
  errorCode := none
  errorMessage := none
  resultKey := none
  createdAt := 0
  updatedAt := 0

/-- One succeeded job with one chunk of the given content. -/
def oneChunk (content : List Char) : RetrievalStore where
  jobs := ⟨[succeededJob], by simp⟩
  chunks := ⟨[chunkOf content], by simp⟩

/-- It has that content. -/
@[simp] theorem chunkOf_content (content : List Char) : (chunkOf content).content = content :=
  rfl

/-- It is the only one. -/
theorem mem_oneChunk {content : List Char} {chunk : DocumentChunkRow} :
    chunk ∈ (oneChunk content).chunks ↔ chunk = chunkOf content :=
  List.mem_singleton

end RetrievalStore

namespace TextSearch

open RetrievalStore

variable {search : TextSearch}

/-- The chunk is returned when it contains a match. -/
theorem retrieveStruct_oneChunk {q content : List Char}
    (hmatch : search.ilikeQuery q content = true) :
    search.retrieveStruct (oneChunk content) q 1 {} =
      [.ofRow "cf-lex-fts-struct-1" (search.structScore q (chunkOf content))
        (chunkOf content)] := by
  have hpass : search.structMatches q (chunkOf content) = true := by
    rw [structMatches, chunkOf_content, hmatch]
    simp
  have hsearchable : (oneChunk content).searchable (chunkOf content) = true := rfl
  have hselect : (oneChunk content).chunks.select (fun chunk =>
      (oneChunk content).searchable chunk && search.structMatches q chunk &&
        ({} : RetrievalFilters).accept chunk) = [chunkOf content] := by
    apply List.filter_eq_self.mpr
    intro chunk hchunk
    obtain rfl := List.mem_singleton.mp hchunk
    rw [hsearchable, hpass]
    rfl
  rw [retrieveStruct, RetrievalStore.search, Keyed.Table.orderBy, hselect]
  rfl

/-- A search that matches returns it. -/
theorem retrieve_oneChunk {query content : List Char} (hquery : normalizeQuery query ≠ [])
    (hmatch : search.ilikeQuery (normalizeQuery query) content = true) :
    search.retrieve (oneChunk content) query 1 {} "cf-lex-fts-struct-1" =
      .ok [.ofRow "cf-lex-fts-struct-1"
        (search.structScore (normalizeQuery query) (chunkOf content)) (chunkOf content)] := by
  rw [retrieve_struct _ (by decide) hquery, retrieveStruct_oneChunk hmatch]

/-- A chunk that matches without an occurrence is boosted all the same. -/
theorem oneChunk_not_real {query content : List Char} (hquery : normalizeQuery query ≠ [])
    (hmatch : search.ilikeQuery (normalizeQuery query) content = true)
    (hnot : ¬ search.Occurs (normalizeQuery query) content) :
    ∃ row, search.retrieve (oneChunk content) query 1 {} "cf-lex-fts-struct-1" = .ok [row] ∧
      ∀ chunk, ¬ search.RealMatch (oneChunk content) (normalizeQuery query) {} chunk row := by
  refine ⟨_, retrieve_oneChunk hquery hmatch, ?_⟩
  intro chunk hreal
  obtain rfl := mem_oneChunk.mp hreal.stored
  apply hnot
  apply hreal.content
  rw [contentBoost, chunkOf_content, if_pos hmatch]
  decide +kernel

/-- A query with a special character is not empty. -/
theorem normalizeQuery_ne_nil {query : List Char} (h : ¬ Plain (normalizeQuery query)) :
    normalizeQuery query ≠ [] := by
  intro hnil
  rw [hnil] at h
  exact h (List.forall_mem_nil _)

/-- **Real matches.** The structural version returns and boosts real matches
only, whatever is stored, exactly for the queries without pattern characters. -/
theorem struct_real_iff (search : TextSearch) (hfolds : likeSpecials.Folds search.lower)
    (query : List Char) :
    (∀ (store : RetrievalStore) (filters : RetrievalFilters) (topK : Int)
        (rows : List RetrievedChunk),
      search.retrieve store query topK filters "cf-lex-fts-struct-1" = .ok rows →
        ∀ row ∈ rows, ∃ chunk,
          search.RealMatch store (normalizeQuery query) filters chunk row) ↔
      Plain (normalizeQuery query) := by
  constructor
  · intro hreal
    by_contra hloose
    have hfill : 'x' ≠ likeSpecials.anyOne := by decide
    obtain ⟨hmatch, hnot⟩ := Like.Specials.exists_loose_match hfolds hfill
      (fun hplain => hloose (plain_iff.mpr hplain))
    obtain ⟨row, hrun, hnone⟩ := oneChunk_not_real (normalizeQuery_ne_nil hloose) hmatch hnot
    obtain ⟨chunk, hrow⟩ := hreal _ _ _ _ hrun row (List.mem_singleton_self row)
    exact hnone chunk hrow
  · intro hplain store filters topK rows hrun row hrow
    by_cases htopK : topK < 1
    · simp [retrieve, htopK] at hrun
    by_cases hquery : normalizeQuery query = []
    · simp only [retrieve, if_neg htopK, if_pos hquery, Except.ok.injEq] at hrun
      subst hrun
      cases hrow
    · rw [retrieve_struct store htopK hquery, Except.ok.injEq] at hrun
      subst hrun
      exact retrieveStruct_real hfolds hplain hrow

/-! ## An identifier -/

/-- A database without full-text matches, with the headings in brackets. -/
def plainSearch : TextSearch where
  matchesEnglish _ _ := false
  rankEnglish _ _ := 0
  matchesSimple _ _ := false
  rankSimple _ _ := 0
  headingText path := ['['] ++ [',', ' '].intercalate path ++ [']']
  lower := Char.toLower

/-- Lowering moves the capital letters by 32 and nothing else. -/
theorem toLower_cases (a : Char) :
    a.toLower = a ∨ 65 ≤ a.toNat ∧ a.toNat ≤ 90 ∧ a.toLower.toNat = a.toNat + 32 := by
  unfold Char.toLower
  split
  · rename_i h
    obtain ⟨hlow, hhigh⟩ := h
    have hlow : 65 ≤ a.toNat := UInt32.le_iff_toNat_le.mp hlow
    have hhigh : a.toNat ≤ 90 := UInt32.le_iff_toNat_le.mp hhigh
    have hsmall : a.val.toNat + 32 < 2 ^ 32 := by
      have hval : a.val.toNat = a.toNat := rfl
      omega
    refine .inr ⟨hlow, hhigh, ?_⟩
    exact (UInt32.toNat_add a.val 32).trans (Nat.mod_eq_of_lt hsmall)
  · exact .inl rfl

/-- Lowering letters neither moves a character that is no letter nor makes one. -/
theorem toLower_eq_iff {a c : Char} (hlower : c.toNat < 97 ∨ 122 < c.toNat)
    (hupper : c.toNat < 65 ∨ 90 < c.toNat) : a.toLower = c ↔ a = c := by
  rcases toLower_cases a with hsame | ⟨hlow, hhigh, hmoved⟩
  · rw [hsame]
  · constructor
    · intro heq
      subst heq
      omega
    · intro heq
      subst heq
      omega

/-- Lowering letters leaves the special characters alone. -/
theorem plainSearch_folds : likeSpecials.Folds plainSearch.lower where
  anySeq _ := toLower_eq_iff (by decide) (by decide)
  anyOne _ := toLower_eq_iff (by decide) (by decide)
  escape _ := toLower_eq_iff (by decide) (by decide)

/-- Part of a word, which only `ILIKE` finds. -/
theorem struct_words_real :
    ∃ row,
      plainSearch.retrieve (oneChunk "Catalog levels".toList)
        " catalo".toList 1 {} "cf-lex-fts-struct-1" = .ok [row] ∧
      ∃ chunk, plainSearch.RealMatch (oneChunk "Catalog levels".toList)
        (normalizeQuery " catalo".toList) {} chunk row := by
  have hrun := @retrieve_oneChunk plainSearch " catalo".toList "Catalog levels".toList
    (by decide +kernel) (by decide +kernel)
  have hreal := (struct_real_iff plainSearch plainSearch_folds " catalo".toList).mpr
    (by decide +kernel)
  exact ⟨_, hrun, hreal _ _ _ _ hrun _ (List.mem_singleton_self _)⟩

/-- An identifier finds, and boosts, prose that does not hold it. -/
theorem struct_identifier_not_real :
    ∃ row,
      plainSearch.retrieve (oneChunk "Catalog levels".toList)
        "log_level".toList 1 {} "cf-lex-fts-struct-1" = .ok [row] ∧
      ∀ chunk, ¬ plainSearch.RealMatch (oneChunk "Catalog levels".toList)
        (normalizeQuery "log_level".toList) {} chunk row :=
  oneChunk_not_real (by decide +kernel) (by decide +kernel) (by decide +kernel)

end TextSearch

end ChallengeForge
