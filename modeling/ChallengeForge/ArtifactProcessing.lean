import ChallengeForge.ArtifactStorage
import ChallengeForge.Chunking
import ChallengeForge.IngestionStore

/-!
# Processing an artifact

`process_artifact`: read the artifact of a job, normalize and chunk it, and
write the two blob outputs.  Up to the writes it is the function
`parseArtifact` of what the storage returned; the writes and their order belong
to the worker.

`artifactChunks` says what an artifact's chunks are, whatever job and attempt
asks for them; `parseArtifact_eq_ok` says that `parseArtifact` yields no others.
-/

namespace ChallengeForge

/-- The settings of an ingestion worker, with the bounds `Settings` puts on the
chunk size.  Times are in microseconds. -/
structure IngestionSettings where
  staleAfter : Int
  maxAttempts : Nat
  retryDelay : Int
  chunkMaxChars : Nat
  chunkMaxChars_ge : 64 ≤ chunkMaxChars
  chunkMaxChars_le : chunkMaxChars ≤ 100000

/-- The defaults of `Settings`. -/
def IngestionSettings.default : IngestionSettings where
  staleAfter := 30000000
  maxAttempts := 3
  retryDelay := 0
  chunkMaxChars := 1200
  chunkMaxChars_ge := by decide
  chunkMaxChars_le := by decide

/-- The exceptions of `process_artifact`. -/
inductive IngestError
  | deterministic (code message : String)
  | transient (code message : String)
  | unexpected (message : String)
  deriving DecidableEq

/-- The bytes that make the parser refuse an artifact for good. -/
def poisonPrefix : List UInt8 := Utf8.encode "cf_ingest_poison".toList

/-- The bytes that make it fail as if for a moment. -/
def transientPrefix : List UInt8 := Utf8.encode "cf_ingest_transient".toList

/-- What `process_artifact` computes before it writes. -/
structure ParsedArtifact where
  canonical : CanonicalDocument
  chunks : List ChunkDraft

/-- What a processed artifact leaves: the keys of its outputs and what describes them. -/
structure IngestResult where
  resultKey : BlobKey
  canonicalKey : BlobKey
  parserVersion : String
  chunkerVersion : String
  canonicalChars : Nat
  canonicalSha256 : String
  contentKind : String
  chunkCount : Nat
  maxChunkChars : Nat
  chunks : List ChunkDraft

/-- The chunks `chunk_hybrid` yields for the artifact under a key, if it can be
read as text. -/
def artifactChunks (settings : IngestionSettings) (storage : Storage) (key : ArtifactKey) :
    Option (List ChunkDraft) :=
  ((storage.get (.artifact key)).bind (fun blob => Utf8.decode blob.data)).bind (fun text =>
    (chunkHybrid (normalizeToCanonical text) settings.chunkMaxChars).toOption)

/-- `process_artifact` up to its writes, on what `storage.get` returned. -/
def parseArtifact (settings : IngestionSettings) (job : IngestionJobRow) (raw : Option Blob) :
    Except IngestError ParsedArtifact :=
  match raw with
  | none =>
      .error (.deterministic "missing_artifact"
        ("Artifact blob missing: " ++ job.artifactKey.path))
  | some blob =>
      if poisonPrefix.isPrefixOf blob.data then
        .error (.deterministic "malformed_artifact"
          "Synthetic poison artifact (deterministic).")
      else if transientPrefix.isPrefixOf blob.data ∧ job.attemptCount < 2 then
        .error (.transient "transient_backend"
          "Synthetic transient failure (retryable until attempt>=2).")
      else
        match Utf8.decode blob.data with
        | none => .error (.deterministic "invalid_encoding" "Artifact is not valid UTF-8.")
        | some text =>
            let canonical := normalizeToCanonical text
            match chunkHybrid canonical settings.chunkMaxChars with
            | .error message => .error (.unexpected message)
            | .ok chunks => .ok ⟨canonical, chunks⟩

/-- What is parsed from an artifact are its chunks. -/
theorem parseArtifact_eq_ok {settings : IngestionSettings} {job : IngestionJobRow}
    {storage : Storage} {parsed : ParsedArtifact}
    (h : parseArtifact settings job (storage.get (.artifact job.artifactKey)) = .ok parsed) :
    artifactChunks settings storage job.artifactKey = some parsed.chunks := by
  unfold parseArtifact at h
  unfold artifactChunks
  cases hraw : storage.get (.artifact job.artifactKey) with
  | none => simp [hraw] at h
  | some blob =>
      simp only [hraw] at h
      split at h
      · cases h
      · split at h
        · cases h
        · cases hdecode : Utf8.decode blob.data with
          | none => simp [hdecode] at h
          | some text =>
              simp only [hdecode] at h
              cases hchunks : chunkHybrid (normalizeToCanonical text) settings.chunkMaxChars with
              | error message => simp [hchunks] at h
              | ok chunks =>
                  simp only [hchunks, Except.ok.injEq] at h
                  subst h
                  simp [hdecode, hchunks, Except.toOption]

/-- The chunk size is never what `process_artifact` fails on. -/
theorem chunkHybrid_isOk (settings : IngestionSettings) (doc : CanonicalDocument) :
    ∃ chunks, chunkHybrid doc settings.chunkMaxChars = .ok chunks := by
  have hpos : ¬ settings.chunkMaxChars < 1 := by
    have := settings.chunkMaxChars_ge
    omega
  exact ⟨_, if_neg hpos⟩

/-! ## The blob outputs -/

/-- `canonical.txt`. -/
def canonicalBlob (parsed : ParsedArtifact) : Blob where
  data := Utf8.encode parsed.canonical.text
  contentType := "text/plain; charset=utf-8"

/-- `canonical.txt` reads back as the canonical text. -/
theorem decode_canonicalBlob (parsed : ParsedArtifact) :
    Utf8.decode (canonicalBlob parsed).data = some parsed.canonical.text :=
  Utf8.decode_encode parsed.canonical.text

/-- A value of the manifest. -/
inductive ManifestValue
  | text (value : String)
  | number (value : Nat)
  | numbers (values : List Nat)
  | texts (values : List String)

/-- `json.dumps` of a manifest value. -/
def ManifestValue.dumps : ManifestValue → List Char
  | text value => jsonString value
  | number value => (toString value).toList
  | numbers values => bracketed (values.map (fun value => (toString value).toList))
  | texts values => bracketed (values.map jsonString)
where
  bracketed (items : List (List Char)) : List Char :=
    ['['] ++ (", ".toList).intercalate items ++ [']']

/-- The payload of `result.json`. -/
def manifest (settings : IngestionSettings) (job : IngestionJobRow) (parsed : ParsedArtifact) :
    List (String × ManifestValue) :=
  [("stage", .text "CHUNKED"),
   ("job_id", .text (uuidText job.id)),
   ("artifact_key", .text job.artifactKey.path),
   ("parser_version", .text parserVersion),
   ("chunker_version", .text chunkerVersion),
   ("content_kind", .text parsed.canonical.kind.value),
   ("canonical_key", .text (BlobKey.canonical job.id).path),
   ("canonical_chars", .number parsed.canonical.charCount),
   ("canonical_sha256", .text parsed.canonical.contentSha256),
   ("canonical_line_count", .number parsed.canonical.lineCount),
   ("chunk_count", .number parsed.chunks.length),
   ("max_chunk_chars", .number settings.chunkMaxChars),
   ("attempt_count", .number job.attemptCount),
   ("chunk_ordinals", .numbers (parsed.chunks.map ChunkDraft.ordinal)),
   ("chunk_content_sha256", .texts (parsed.chunks.map ChunkDraft.contentSha256))]

/-- `json.dumps(payload, sort_keys=True)`. -/
def dumpsSorted (payload : List (String × ManifestValue)) : List Char :=
  let members := payload.insertionSort (fun a b => a.1 ≤ b.1)
  ['\x7b'] ++ (", ".toList).intercalate
    (members.map (fun member => jsonString member.1 ++ ": ".toList ++ member.2.dumps)) ++ ['\x7d']

/-- `result.json`. -/
def resultBlob (settings : IngestionSettings) (job : IngestionJobRow) (parsed : ParsedArtifact) :
    Blob where
  data := Utf8.encode (dumpsSorted (manifest settings job parsed))
  contentType := "application/json"

/-- What `process_artifact` returns after both writes. -/
def ingestResult (settings : IngestionSettings) (job : IngestionJobRow) (parsed : ParsedArtifact) :
    IngestResult where
  resultKey := .result job.id
  canonicalKey := .canonical job.id
  parserVersion := parserVersion
  chunkerVersion := chunkerVersion
  canonicalChars := parsed.canonical.charCount
  canonicalSha256 := parsed.canonical.contentSha256
  contentKind := parsed.canonical.kind.value
  chunkCount := parsed.chunks.length
  maxChunkChars := settings.chunkMaxChars
  chunks := parsed.chunks

end ChallengeForge
