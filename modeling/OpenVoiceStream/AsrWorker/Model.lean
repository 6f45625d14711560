import OpenVoiceStream.AsrWorker.Transcript
import OpenVoiceStream.Base.Assoc
import OpenVoiceStream.Base.Machine

/-!
# The recognition worker

The worker reads lines from its standard input.  A `begin` reserves a lane for a session, a
`chunk` records the audio so far and answers with a partial transcript, and `end`, or a
chunk with `last`, answers with the final one and closes the session.  A session that is
silent for too long is closed by the sweep.

The audio of a session is the path of a mel file.  Where a line carries samples instead,
the worker converts them to a mel file of its own, which it removes when it makes the next
one and when the session closes.

The decoder, the lane manager and the conversion are not part of this file.  What they
answer is chosen by the environment of a step.  An exception that a handler does not catch
ends the process.

The fields `acquired` and `disk` are the lanes that the lane manager has given away and the
mel files the worker has made.  The field `history` is one that the code does not have.

## Main definitions

* `Session`, `Worker` — the state.
* `Env` — what the rest of the system answers in a step.
* `Reply` — what a handler writes and leaves behind, and whether an exception escapes.
* `handleBegin`, `handleChunk`, `handleEnd`, `sweepIdleSessions`, `onLine` — the source's.
* `machine` — the worker over its lines and sweeps.
-/

namespace OpenVoiceStream
namespace AsrWorker

/-- What is fixed when the worker starts. -/
structure Cfg where
  maxSlots : ℤ
  /-- `gMelExtractor` is there. -/
  melExtractor : Bool
  /-- `temp_directory_path()`. -/
  tempDirectory : Bytes
  /-- `asrStreamPrefix::enabled()`. -/
  streamPrefix : Bool
  /-- `OVS_ASR_STREAM_PREFIX_FINAL_ONESHOT` is not `0`. -/
  finalOneShot : Bool
  /-- `gPrefixTokenizer`. -/
  prefixTokenizer : Option Tokenizer
  unfixedChunkNum : ℕ
  unfixedTokenNum : ℕ

/-- A session. -/
structure Session where
  laneId : ℤ
  melPath : Bytes
  melPathOwned : Bytes
  pcmB64 : Bytes
  /-- The items of `beginMeta`. -/
  beginMeta : List (String × Json)
  lastActivity : ℕ
  rawDecoded : Bytes
  chunkId : ℕ

/-- A mel file that the worker has made. -/
structure MelFile where
  path : Bytes
  /-- The session that it was made for. -/
  sid : Bytes
  /-- The samples that it was made from. -/
  pcm : Bytes
  /-- The conversion has returned its path. -/
  returned : Bool

/-- What has happened. -/
inductive Event
  /-- A `begin` opened the session. -/
  | acked (sid : Bytes)
  /-- The session was closed by a final, an error of `end` or a timeout. -/
  | closed (sid : Bytes)
  /-- The decoder was called for the session with the audio `path`: that of the mel file
  made from `content`, if it is there. -/
  | decoded (sid : Bytes) (path : Bytes) (content : Option Bytes)

/-- The state of the worker. -/
structure Worker where
  /-- `gSessions`. -/
  sessions : Dictionary Bytes Session
  acquired : List ℤ
  disk : List MelFile
  history : List Event

/-- How a conversion ends, at some time of the clock. -/
inductive Conversion
  | made (tick : ℕ)
  /-- It throws, and has opened its file at that time if it has. -/
  | failed (opened : Option ℕ) (what : Bytes)

/-- How the decoder answers. -/
inductive Ran
  | threw (what : Bytes)
  /-- It has texts, with the indexes of their requests and batches. -/
  | finished (ok : Bool) (texts : List (ℤ × ℤ × Bytes)) (totalMs : UInt64)

/-- What the rest of the system answers in a step. -/
structure Env where
  /-- The clock, in milliseconds. -/
  now : ℕ
  /-- What `acquire` returns. -/
  lane : ℤ
  conversion : Conversion
  ran : Ran

/-- What a handler leaves behind. -/
structure Reply where
  worker : Worker
  /-- The lines written. -/
  lines : List Json
  /-- An exception escapes. -/
  escaped : Bool

namespace Worker

/-- Nothing has happened yet. -/
def start : Worker := { sessions := .empty, acquired := [], disk := [], history := [] }

/-- A line is written, if it can be. -/
def say (w : Worker) (line : Json) : Reply :=
  if line.dumps then ⟨w, [line], false⟩ else ⟨w, [], true⟩

/-- An exception that is not caught. -/
def throws (w : Worker) : Reply := ⟨w, [], true⟩

/-- The session has this state now. -/
def put (w : Worker) (sid : Bytes) (st : Session) : Worker :=
  { w with sessions := w.sessions.put sid st }

/-- The decoder is called. -/
def decode (w : Worker) (sid path : Bytes) : Worker :=
  { w with
    history := .decoded sid path ((w.disk.find? fun f => f.path == path).map (·.pcm)) :: w.history }

end Worker

/-! ### Mel files -/

/-- A character of a session id as it stands in a file name. -/
def safeByte (b : UInt8) : UInt8 :=
  if between 0x30 b 0x39 || between 0x61 b 0x7A || between 0x41 b 0x5A || decide (b = 0x5F) ||
      decide (b = 0x2D) then b
  else 0x5F

/-- The file a conversion makes. -/
def melFile (cfg : Cfg) (sid : Bytes) (tick : ℕ) : Bytes :=
  cfg.tempDirectory ++ ascii "/qwen3_asr_pcm_mel_" ++
    (if sid = [] then ascii "s" else sid.map safeByte) ++ ascii "_" ++ ascii (toString tick) ++
    ascii ".safetensors"

/-- `std::filesystem::remove`. -/
def removeFile (disk : List MelFile) (path : Bytes) : List MelFile :=
  disk.filter fun f => f.path != path

/-- The path is removed, if there is one. -/
def removeOwned (disk : List MelFile) (path : Bytes) : List MelFile :=
  if path = [] then disk else removeFile disk path

/-- `pcmB64ToMelSafetensors`: what it leaves on the disk, and the path it returns or the
message of what it throws.  It throws at once where there is nothing to convert. -/
def pcmB64ToMelSafetensors (cfg : Cfg) (disk : List MelFile) (sid pcm : Bytes)
    (conversion : Conversion) : List MelFile × Except Bytes Bytes :=
  if pcm = [] then
    (disk, .error (ascii ("pcm_b64_malformed: decoded bytes not a positive multiple of 4 " ++
      "(float32-LE expected)")))
  else
  match conversion with
  | .made tick =>
    (⟨melFile cfg sid tick, sid, pcm, true⟩ :: removeFile disk (melFile cfg sid tick),
      .ok (melFile cfg sid tick))
  | .failed (some tick) what =>
    (⟨melFile cfg sid tick, sid, pcm, false⟩ :: removeFile disk (melFile cfg sid tick),
      .error what)
  | .failed none what => (disk, .error what)

/-- The old mel file of a session is removed, and the new one takes its place. -/
def remakeMel (cfg : Cfg) (disk : List MelFile) (sid : Bytes) (st : Session)
    (conversion : Conversion) : List MelFile × Except Bytes Session :=
  let made := pcmB64ToMelSafetensors cfg (removeOwned disk st.melPathOwned) sid st.pcmB64 conversion
  match made.2 with
  | .ok path => (made.1, .ok { st with melPathOwned := path, melPath := path })
  | .error what => (made.1, .error what)

/-! ### The decoder -/

/-- A field that is set if it is not there. -/
def withDefault (items : List (String × Json)) (key : String) (value : Json) :
    List (String × Json) :=
  if (items.lookup key).isSome then items else items ++ [(key, value)]

/-- `1.0`. -/
def oneReal : Json := .real 0x3FF0000000000000

/-- The items of a request before its messages. -/
def requestMeta (sid : Bytes) (st : Session) : List (String × Json) :=
  let items := withDefault st.beginMeta "batch_size" (.integer 1)
  let items := withDefault items "temperature" oneReal
  let items := withDefault items "top_p" oneReal
  let items := withDefault items "top_k" (.integer 1)
  let items := withDefault items "max_generate_length" (.integer 256)
  Assoc.put items "id" (.string sid)

/-- The content of the user's message: the audio of the session. -/
def userContent (st : Session) : Json :=
  .array (if st.melPath = [] then []
    else [.object [("type", .literal "audio"), ("audio", .string st.melPath)]])

/-- A message. -/
def message (role : String) (content : Json) : Json :=
  .object [("role", .literal role), ("content", content)]

/-- `requests`. -/
def requests (messages : List Json) : Json :=
  .array [.object [("messages", .array messages), ("reference", .literal "ref")]]

/-- `buildFinalizeRequest`. -/
def buildFinalizeRequest (sid : Bytes) (st : Session) : Json :=
  .object (Assoc.put (requestMeta sid st) "requests" (requests [message "user" (userContent st)]))

/-- `buildPrefixRequest`, uncapped. -/
def buildPrefixRequest (sid : Bytes) (st : Session) (confirmed : Bytes) : Json :=
  let items := Assoc.put (requestMeta sid st) "apply_chat_template" (.boolean true)
  let items := Assoc.put items "max_generate_length_override" (.integer (-1))
  let items := Assoc.put items "add_generation_prompt" (.boolean confirmed.isEmpty)
  let messages := [message "user" (userContent st)] ++
    if confirmed = [] then [] else [message "assistant" (.string confirmed)]
  .object (Assoc.put items "requests" (requests messages))

/-- The answer of `runOneShotCore` where something is thrown. -/
def coreThrew (what : Bytes) : Json :=
  .object [("event", .literal "error"), ("ok", .boolean false), ("error", .string what)]

/-- One text of an answer. -/
def responseItem (item : ℤ × ℤ × Bytes) : Json :=
  .object [("request_idx", .integer item.1), ("batch_idx", .integer item.2.1),
    ("output_text", .string item.2.2)]

/-- `runOneShotCore`. -/
def runOneShotCore (input : Json) (ran : Ran) : Json :=
  match ran, input.valueString "id" [] with
  | .threw what, _ => coreThrew what
  | .finished .., none => coreThrew (ascii "[json.exception.type_error]")
  | .finished ok texts totalMs, some id =>
    .object [("id", .string id), ("event", .literal (if ok then "done" else "error")),
      ("ok", .boolean ok), ("responses", .array (texts.map responseItem)),
      ("total_ms", .real totalMs)]

/-- The text of the first response. -/
def outputText (core : Json) : Option Bytes :=
  match core.find "responses" with
  | some (.array (first :: _)) => first.stringAt "output_text"
  | _ => none

/-- `core.value("ok", false)`: an answer is an object, and `ok` is a truth value. -/
def coreOk (core : Json) : Bool := (core.valueBool "ok" false).getD false

/-- `transcriptFromCore`. -/
def transcriptFromCore (core : Json) : Bytes := ((outputText core).map stripLangTag).getD []

/-- `HopOut`. -/
structure HopOut where
  ok : Bool
  generated : Bytes
  totalMs : UInt64
  error : Bytes

/-- `runPrefixHop`. -/
def runPrefixHop (sid : Bytes) (st : Session) (confirmed : Bytes) (ran : Ran) : HopOut :=
  let core := runOneShotCore (buildPrefixRequest sid st confirmed) ran
  { ok := coreOk core
    generated := if coreOk core then ((outputText core).map parseAsrText).getD [] else []
    totalMs := match core.find "total_ms" with
      | some (.real bits) => bits
      | _ => 0
    error := if coreOk core then [] else (core.stringAt "error").getD [] }

/-- `computePrefix`. -/
def computePrefix (cfg : Cfg) (st : Session) (isFinish : Bool) : Bytes :=
  match cfg.prefixTokenizer with
  | none => []
  | some tok =>
    if st.rawDecoded = [] ∨ st.chunkId < cfg.unfixedChunkNum then []
    else
      let tokens := tok.encode st.rawDecoded
      if tokens = [] then []
      else
        rollBack tok tokens isFinish
          (max (if isFinish then 1 else 0) (tokens.length - cfg.unfixedTokenNum))

/-! ### The handlers -/

/-- An error about a session. -/
def errorOf (sid : Bytes) (error : String) (more : List (String × Json)) : Json :=
  .object ([("event", .literal "error"), ("id", .string sid), ("ok", .boolean false),
    ("error", .literal error)] ++ more)

/-- `pcm_input_unsupported`. -/
def unsupported (sid : Bytes) (hint : String) : Json :=
  errorOf sid "pcm_input_unsupported" [("hint", .literal hint)]

/-- `pcm_to_mel_failed`. -/
def conversionFailed (sid what : Bytes) : Json :=
  errorOf sid "pcm_to_mel_failed" [("detail", .string what)]

/-- `begin_ack`. -/
def beginAck (sid : Bytes) (lane : ℤ) : Json :=
  .object [("event", .literal "begin_ack"), ("id", .string sid), ("lane", .integer lane)]

/-- `partial`. -/
def partialOf (sid text : Bytes) : Json :=
  .object [("event", .literal "partial"), ("id", .string sid), ("text", .string text)]

/-- The knobs that a session keeps from its `begin`. -/
def metaKeys : List String :=
  ["batch_size", "temperature", "top_p", "top_k", "max_generate_length"]

/-- `handleBegin`. -/
def handleBegin (cfg : Cfg) (w : Worker) (env : Env) (input : Json) : Reply :=
  match input.valueString "id" [] with
  | none => w.throws
  | some sid =>
    if sid = [] then
      w.say (.object [("event", .literal "error"), ("ok", .boolean false),
        ("error", .literal "begin_missing_id")])
    else
      match w.sessions.get sid with
      | some st =>
        (w.put sid { st with lastActivity := env.now }).say (beginAck sid st.laneId)
      | none =>
        if env.lane < 0 then
          w.say (errorOf sid "pool_saturated"
            [("status", .integer 4429), ("max_slots", .integer cfg.maxSlots)])
        else
          let st : Session :=
            { laneId := env.lane, melPath := [], melPathOwned := [], pcmB64 := []
              beginMeta := metaKeys.filterMap fun key => (input.find key).map (key, ·)
              lastActivity := env.now, rawDecoded := [], chunkId := 0 }
          Worker.say
            { w.put sid st with
              acquired := env.lane :: w.acquired
              history := .acked sid :: w.history } (beginAck sid env.lane)

/-- The audio that a line carries goes to the session. -/
def Session.describe (st : Session) (input : Json) : Session :=
  { st with
    melPath := (input.stringAt "mel_path").getD ((input.stringAt "audio").getD st.melPath)
    pcmB64 := (input.stringAt "pcm_b64").getD st.pcmB64 }

/-- A final that re-shapes the answer of `runOneShotCore`. -/
def finalOf (sid : Bytes) (core : Json) : Json :=
  .object ([("event", .literal "final"), ("id", .string sid), ("ok", .boolean (coreOk core))] ++
    ((core.find "responses").map (("responses", ·))).toList ++
    (if coreOk core then [("text", .string (transcriptFromCore core))] else []) ++
    ((core.find "total_ms").map (("total_ms", ·))).toList ++
    ((core.find "error").map (("error", ·))).toList)

/-- The final of a last hop that is rolled back. -/
def finalOfHop (sid confirmed : Bytes) (hop : HopOut) : Json :=
  .object ([("event", .literal "final"), ("id", .string sid), ("ok", .boolean hop.ok)] ++
    (if hop.ok then
      [("responses", .array [responseItem (0, 0, confirmed ++ hop.generated)]),
        ("text", .string (stripLangTag (confirmed ++ hop.generated)))]
    else []) ++
    [("total_ms", .real hop.totalMs)] ++
    if hop.error = [] then [] else [("error", .string hop.error)])

/-- The answer of `end`, where no conversion has failed. -/
def finalAnswer (cfg : Cfg) (w : Worker) (env : Env) (sid : Bytes) (st : Session) : Worker × Json :=
  if st.melPath = [] then (w, errorOf sid "no_audio_accumulated" [])
  else if cfg.streamPrefix && !cfg.finalOneShot then
    let confirmed := computePrefix cfg st true
    (w.decode sid st.melPath, finalOfHop sid confirmed (runPrefixHop sid st confirmed env.ran))
  else
    (w.decode sid st.melPath, finalOf sid (runOneShotCore (buildFinalizeRequest sid st) env.ran))

/-- The session is closed: its mel files are removed and its lane released. -/
def Worker.close (w : Worker) (sid : Bytes) (lane : ℤ) (owned : List Bytes) : Worker :=
  { w with
    sessions := w.sessions.erase sid
    acquired := w.acquired.erase lane
    disk := owned.foldl removeOwned w.disk
    history := .closed sid :: w.history }

/-- `handleEnd`. -/
def handleEnd (cfg : Cfg) (w : Worker) (env : Env) (input : Json) : Reply :=
  match input.valueString "id" [] with
  | none => w.throws
  | some sid =>
    match w.sessions.get sid with
    | none => w.say (errorOf sid "unknown_session" [])
    | some kept =>
      -- a copy: what the line carries does not reach the session in the table
      let st := kept.describe input
      if (input.stringAt "pcm_b64").isSome then
        if cfg.melExtractor then
          match remakeMel cfg w.disk sid st env.conversion with
          | (disk, .ok st) =>
            let answer := finalAnswer cfg { w with disk := disk } env sid st
            (answer.1.close sid kept.laneId [kept.melPathOwned, st.melPathOwned]).say answer.2
          | (disk, .error what) =>
            ({ w with disk := disk }.close sid kept.laneId [kept.melPathOwned]).say
              (conversionFailed sid what)
        else
          (w.close sid kept.laneId [kept.melPathOwned]).say
            (unsupported sid "worker started without --melSettings/--melFilters")
      else
        let answer := finalAnswer cfg w env sid st
        (answer.1.close sid kept.laneId [kept.melPathOwned]).say answer.2

/-- The answer to a chunk once the audio of the session is there. -/
def decodeChunk (cfg : Cfg) (w : Worker) (env : Env) (sid : Bytes) (st : Session) : Reply :=
  if st.melPath = [] ∧ st.pcmB64 = [] then
    w.say (.object [("event", .literal "chunk_ack"), ("id", .string sid)])
  else
    let w := w.decode sid st.melPath
    if cfg.streamPrefix then
      let confirmed := computePrefix cfg st false
      let hop := runPrefixHop sid st confirmed env.ran
      if hop.ok then
        let raw := confirmed ++ hop.generated
        (w.put sid { st with rawDecoded := raw, chunkId := st.chunkId + 1 }).say
          (partialOf sid (stripLangTag raw))
      else
        w.say (errorOf sid "partial_decode_failed"
          (if hop.error = [] then [] else [("detail", .string hop.error)]))
    else
      let core := runOneShotCore (buildFinalizeRequest sid st) env.ran
      if coreOk core then w.say (partialOf sid (transcriptFromCore core))
      else
        w.say (errorOf sid "partial_decode_failed"
          ((core.find "error").map (("detail", ·))).toList)

/-- `handleChunk`. -/
def handleChunk (cfg : Cfg) (w : Worker) (env : Env) (input : Json) : Reply :=
  match input.valueString "id" [] with
  | none => w.throws
  | some sid =>
    match w.sessions.get sid with
    | none => w.say (errorOf sid "unknown_session" [])
    | some st =>
      let st := { st.describe input with lastActivity := env.now }
      let w := w.put sid st
      match input.valueBool "last" false with
      | none => w.throws
      | some true => handleEnd cfg w env input
      | some false =>
        if st.pcmB64 = [] then decodeChunk cfg w env sid st
        else if !cfg.melExtractor then
          w.say (unsupported sid ("worker started without --melSettings/--melFilters; pass them or " ++
            "set EDGE_LLM_ASR_MEL_\x7bSETTINGS,FILTERS\x7d"))
        else
          match remakeMel cfg w.disk sid st env.conversion with
          | (disk, .ok st) => decodeChunk cfg ({ w with disk := disk }.put sid st) env sid st
          | (disk, .error what) => { w with disk := disk }.say (conversionFailed sid what)

/-! ### The lines -/

/-- A line that could be read. -/
def onJson (cfg : Cfg) (w : Worker) (env : Env) (parsed : Json) : Reply :=
  if !parsed.contains "event" then w.say (runOneShotCore parsed env.ran)
  else
    match parsed.valueString "event" [] with
    | none => w.throws
    | some event =>
      if event = ascii "begin" then handleBegin cfg w env parsed
      else if event = ascii "chunk" then handleChunk cfg w env parsed
      else if event = ascii "end" then handleEnd cfg w env parsed
      else
        match parsed.valueString "id" [] with
        | none => w.throws
        | some id =>
          w.say (.object ([("event", .literal "error"), ("ok", .boolean false),
            ("error", .literal "unknown_event"), ("received", .string event)] ++
            if id = [] then [] else [("id", .string id)]))

/-- One line of the loop, where `parse` gives the value or the message of the exception. -/
def onLine (cfg : Cfg) (parse : Bytes → Except Bytes Json) (w : Worker) (env : Env)
    (line : Bytes) : Reply :=
  if line = [] then ⟨w, [], false⟩
  else
    match parse line with
    | .error what =>
      w.say (.object [("event", .literal "error"), ("ok", .boolean false),
        ("error", .string (ascii "json_parse_failed: " ++ what))])
    | .ok parsed => onJson cfg w env parsed

/-- `kIdleTimeoutMs`. -/
def kIdleTimeoutMs : ℕ := 30000

/-- The sweep closes one session that was found silent. -/
def sweepOne (reply : Reply) (idle : Bytes × ℤ) : Reply :=
  if reply.escaped then reply
  else
    let owned := ((reply.worker.sessions.get idle.1).map (·.melPathOwned)).getD []
    let said := (reply.worker.close idle.1 idle.2 [owned]).say
      (.object [("event", .literal "timeout"), ("id", .string idle.1), ("ok", .boolean false),
        ("error", .literal "idle_timeout"), ("idle_ms", .integer kIdleTimeoutMs)])
    ⟨said.worker, reply.lines ++ said.lines, said.escaped⟩

/-- The sessions that have been silent for too long, with their lanes. -/
def reap (w : Worker) (now : ℕ) : List (Bytes × ℤ) :=
  (w.sessions.items.filter fun item => decide (kIdleTimeoutMs < now - item.2.lastActivity)).map
    fun item => (item.1, item.2.laneId)

/-- `sweepIdleSessions`. -/
def sweepIdleSessions (w : Worker) (now : ℕ) : Reply :=
  (reap w now).foldl sweepOne ⟨w, [], false⟩

/-- The actions of the worker. -/
inductive Act
  /-- A line that could be read. -/
  | line (env : Env) (parsed : Json)
  | sweep (now : ℕ)

/-- One step.  The lane manager gives away no lane that it has given away already, and the
process ends where an exception escapes. -/
def step (cfg : Cfg) (w : Worker) : Act → Option Worker
  | .line env parsed =>
    if env.lane ∈ w.acquired then none
    else
      let reply := onJson cfg w env parsed
      if reply.escaped then none else some reply.worker
  | .sweep now =>
    let reply := sweepIdleSessions w now
    if reply.escaped then none else some reply.worker

/-- The worker as a machine. -/
def machine (cfg : Cfg) : Machine Worker Act := { init := .start, step := step cfg }

end AsrWorker
end OpenVoiceStream
