import LLMRuntime.Api.StreamText
import LLMRuntime.Core.Services
import LLMRuntime.Foundation.JsonNumbers

namespace LLMRuntime

open Json TextLines FloatText

/-- What `JSONFormatter` reads of a `logging.LogRecord`; `extra` are the attributes that a call adds. -/
structure LogRecord where
  asctime : String
  levelname : String := "INFO"
  name : String := "llm_runtime.request"
  message : String
  exception : Option String := none
  extra : List (String × Value) := []

namespace LogRecord

def structuredKeys : List String :=
  ["request_id", "event", "elapsed_ms", "tokens", "batch_size", "reason", "status_code", "error"]

/-- `getattr(record, key, None)` -/
def getattr (record : LogRecord) (key : String) : Value :=
  ((record.extra.find? fun entry => entry.1 = key).map Prod.snd).getD .null

def field (name : String) (text : String) : List Nat × Value := (ofString name, .str (ofString text))

/-- A key whose attribute is `None` is left out. -/
def structuredField (record : LogRecord) (key : String) : Option (List Nat × Value) :=
  match record.getattr key with
  | .null => none
  | value => some (ofString key, value)

def heading (record : LogRecord) : List (List Nat × Value) :=
  [field "timestamp" record.asctime, field "level" record.levelname, field "logger" record.name,
    field "message" record.message] ++ (record.exception.map (field "exception")).toList

def entry (record : LogRecord) : List (List Nat × Value) :=
  record.heading ++ structuredKeys.filterMap record.structuredField

def format (record : LogRecord) : List Char := dumps (.obj record.entry)

end LogRecord

/-- What a `StreamHandler` has written. -/
def logText (records : List LogRecord) : List Char := records.flatMap fun record => record.format ++ ['\n']

namespace LogEvent

def name : LogEvent → String
  | .requestReceived .. => "request_received"
  | .requestEnqueued .. => "request_enqueued"
  | .requestRejected .. => "request_rejected"
  | .batchFormed .. => "batch_formed"
  | .requestCompleted .. => "request_completed"
  | .requestFailed .. => "request_failed"

def message : LogEvent → String
  | .requestReceived .. => "request received"
  | .requestEnqueued .. => "request enqueued"
  | .requestRejected .. => "request rejected"
  | .batchFormed .. => "batch formed for execution"
  | .requestCompleted .. => "request completed"
  | .requestFailed .. => "request failed"

def text (s : String) : Value := .str (ofString s)

def number (n : Nat) : Value := .num (Nat.toDigits 10 n)

def extra (event : LogEvent) : List (String × Value) :=
  match event with
  | .requestReceived requestId model stream =>
    [("request_id", text requestId), ("event", text event.name), ("model", text model), ("stream", .bool stream)]
  | .requestEnqueued requestId => [("request_id", text requestId), ("event", text event.name)]
  | .requestRejected requestId reason statusCode =>
    [("request_id", text requestId), ("event", text event.name), ("reason", text reason),
      ("status_code", number statusCode)]
  | .batchFormed batchSize requestIds =>
    [("event", text event.name), ("batch_size", number batchSize), ("request_ids", .arr (requestIds.map text))]
  | .requestCompleted requestId tokens elapsedMs =>
    [("request_id", text requestId), ("event", text event.name), ("tokens", number tokens),
      ("elapsed_ms", .num (floatText elapsedMs))]
  | .requestFailed requestId error =>
    [("request_id", text requestId), ("event", text event.name), ("error", text error)]

def record (asctime : String) (event : LogEvent) : LogRecord :=
  { asctime, message := event.message, extra := event.extra }

/-- The formatter leaves out the model, the stream flag and the ids of a batch. -/
def visible : LogEvent → LogEvent
  | .requestReceived requestId _ _ => .requestReceived requestId "" false
  | .batchFormed batchSize _ => .batchFormed batchSize []
  | event => event

def Double : LogEvent → Prop
  | .requestCompleted _ _ elapsedMs => Representable |elapsedMs|
  | _ => True

section Reading

def readText (v : Value) (key : String) : Option String :=
  match v.get key .null with
  | some (.str points) => some (String.ofList (points.map Char.ofNat))
  | _ => none

def readNumber (v : Value) (key : String) : Option (List Char) :=
  match v.get key .null with
  | some (.num lexeme) => some lexeme
  | _ => none

def readNat (v : Value) (key : String) : Option Nat := (readNumber v key).map fun lexeme => Nat.ofDigitChars 10 lexeme 0

/-- The event that a line of the log tells of, for a consumer that goes by its fields. -/
def ofLine (v : Value) : Option LogEvent :=
  match readText v "event" with
  | some "request_received" => (readText v "request_id").map fun requestId => .requestReceived requestId "" false
  | some "request_enqueued" => (readText v "request_id").map .requestEnqueued
  | some "request_rejected" => do
    return .requestRejected (← readText v "request_id") (← readText v "reason") (← readNat v "status_code")
  | some "batch_formed" => (readNat v "batch_size").map fun batchSize => .batchFormed batchSize []
  | some "request_completed" => do
    return .requestCompleted (← readText v "request_id") (← readNat v "tokens")
      (readFloat (← readNumber v "elapsed_ms"))
  | some "request_failed" => do return .requestFailed (← readText v "request_id") (← readText v "error")
  | _ => none

end Reading

end LogEvent

section Fields

theorem ofString_injective {s t : String} (same : ofString s = ofString t) : s = t := by
  apply String.toList_inj.mp
  exact List.map_injective_iff.mpr (fun c d equal => Char.toNat_inj.mp equal) same

theorem string_ofString (s : String) : String.ofList ((ofString s).map Char.ofNat) = s := by
  rw [ofString, List.map_map]
  have same : s.toList.map (Char.ofNat ∘ Char.toNat) = s.toList :=
    (List.map_congr_left fun c _ => Char.ofNat_toNat c).trans (List.map_id _)
  rw [same, String.ofList_toList]

namespace LogRecord

variable (record : LogRecord)

theorem structuredField_named {key : String} (name : String) {value : List Nat × Value}
    (found : record.structuredField key = some value) : value.1 = ofString name ↔ key = name := by
  unfold structuredField at found
  split at found
  · cases found
  · cases found
    exact ⟨ofString_injective, congrArg ofString⟩

theorem find_structured (name : String) {keys : List String} (distinct : keys.Nodup) :
    (keys.filterMap record.structuredField).reverse.find? (fun member => member.1 = ofString name) =
      if name ∈ keys then record.structuredField name else none := by
  induction keys with
  | nil => rfl
  | cons key keys ih =>
    obtain ⟨fresh, later⟩ := List.nodup_cons.mp distinct
    have rest := ih later
    rw [List.filterMap_cons]
    split
    · next absent =>
      rw [rest]
      by_cases own : name = key
      · subst own
        rw [if_neg fresh, if_pos List.mem_cons_self, absent]
      · simp [own]
    · next value found =>
      rw [List.reverse_cons, List.find?_append, rest]
      have named := record.structuredField_named name found
      by_cases own : name = key
      · subst own
        rw [if_neg fresh, if_pos List.mem_cons_self, found]
        simp [named]
      · have other : ¬ value.1 = ofString name := fun same => own (named.mp same).symm
        by_cases listed : name ∈ keys
        · simp [own, listed, other]
        · simp [own, listed, other]

theorem heading_named {member : List Nat × Value} (listed : member ∈ record.heading) :
    ∃ name ∈ ["timestamp", "level", "logger", "message", "exception"], ∃ text, member = field name text := by
  rcases List.mem_append.mp listed with first | last
  · simp only [List.mem_cons, List.not_mem_nil, or_false] at first
    rcases first with rfl | rfl | rfl | rfl
    all_goals exact ⟨_, by decide, _, rfl⟩
  · obtain ⟨text, -, rfl⟩ := Option.map_eq_some_iff.mp (Option.mem_toList.mp last)
    exact ⟨"exception", by decide, text, rfl⟩

theorem get_entry {key : String} (known : key ∈ structuredKeys) :
    (Value.obj record.entry).get key .null = some (record.getattr key) := by
  have names : ∀ name ∈ ["timestamp", "level", "logger", "message", "exception"], name ∉ structuredKeys := by decide
  have absent : record.heading.reverse.find? (fun member => member.1 = ofString key) = none := by
    apply List.find?_eq_none.mpr
    intro member listed same
    obtain ⟨name, fixed, text, rfl⟩ := record.heading_named (List.mem_reverse.mp listed)
    rw [ofString_injective (of_decide_eq_true same)] at fixed
    exact names key fixed known
  rw [Value.get, entry, List.reverse_append, List.find?_append, find_structured record key (by decide), if_pos known,
    absent, Option.or_none]
  unfold structuredField
  split
  · next none =>
    rw [none]
    rfl
  · rfl

end LogRecord

end Fields

section Lines

theorem plainItems_iff {items : List Value} : PlainItems items ↔ ∀ v ∈ items, Json.Plain v := by
  induction items with
  | nil => simp [PlainItems]
  | cons v items ih => simp [PlainItems, ih]

theorem plainMembers_iff {members : List (List Nat × Value)} :
    PlainMembers members ↔ ∀ m ∈ members, (∀ point ∈ m.1, Scalar point) ∧ Json.Plain m.2 := by
  induction members with
  | nil => simp [PlainMembers]
  | cons m members ih => simp [PlainMembers, ih, and_assoc]

/-- Every attribute is a JSON value, its strings without lone surrogates. -/
def LogRecord.Sound (record : LogRecord) : Prop := ∀ added ∈ record.extra, Json.Plain added.2

namespace LogRecord

variable {record : LogRecord}

theorem Sound.getattr (sound : record.Sound) (key : String) : Json.Plain (record.getattr key) := by
  unfold LogRecord.getattr
  cases found : record.extra.find? fun entry => entry.1 = key with
  | none => trivial
  | some added => exact sound added (List.mem_of_find?_eq_some found)

theorem Sound.entry (sound : record.Sound) : Json.Plain (.obj record.entry) := by
  change PlainMembers record.entry
  rw [plainMembers_iff]
  intro member listed
  rcases List.mem_append.mp listed with first | last
  · obtain ⟨name, -, text, rfl⟩ := record.heading_named first
    exact ⟨scalar_ofString name, scalar_ofString text⟩
  · obtain ⟨key, -, found⟩ := List.mem_filterMap.mp last
    have plain := sound.getattr key
    unfold structuredField at found
    split at found
    · cases found
    · cases found
      exact ⟨scalar_ofString key, plain⟩

end LogRecord

/-- One line for each record, whatever its texts contain. -/
theorem splitlines_logText {records : List LogRecord} (sound : ∀ record ∈ records, record.Sound) :
    splitlines (logText records) = records.map LogRecord.format := by
  induction records with
  | nil => rfl
  | cons record records ih =>
    have inner (c : Char) (member : c ∈ record.format) : isLineBreak c = false :=
      isLineBreak_of_printable (dumps_printable _ (sound record List.mem_cons_self).entry c member)
    have rest := ih fun other member => sound other (List.mem_cons_of_mem _ member)
    have split : logText (record :: records) = record.format ++ '\n' :: logText records := by
      rw [logText, List.flatMap_cons, List.append_assoc]
      rfl
    rw [split, splitlines_first inner (by decide), List.map_cons, ← rest]
    rfl

end Lines

section Events

/-- A call of a logger: an event of `RequestLogger`, or a message of the runtime's own logger, with any text in it. -/
inductive LogCall where
  | event (asctime : String) (event : LogEvent)
  | message (asctime levelname name message : String) (exception : Option String)

namespace LogCall

def record : LogCall → LogRecord
  | .event asctime happened => happened.record asctime
  | .message asctime levelname name said exception => { asctime, levelname, name, message := said, exception }

def event? : LogCall → Option LogEvent
  | .event _ happened => some happened
  | .message .. => none

end LogCall

namespace LogEvent

variable (event : LogEvent) (asctime : String)

theorem plain_text (s : String) : Json.Plain (text s) := scalar_ofString s

theorem plain_number (n : Nat) : Json.Plain (number n) := numberText_toDigits n

theorem record_sound : (event.record asctime).Sound := by
  intro added member
  change added ∈ event.extra at member
  cases event with
  | requestReceived requestId model stream =>
    simp only [extra, List.mem_cons, List.not_mem_nil, or_false] at member
    rcases member with rfl | rfl | rfl | rfl
    · exact plain_text _
    · exact plain_text _
    · exact plain_text _
    · trivial
  | requestEnqueued requestId =>
    simp only [extra, List.mem_cons, List.not_mem_nil, or_false] at member
    rcases member with rfl | rfl
    · exact plain_text _
    · exact plain_text _
  | requestRejected requestId reason statusCode =>
    simp only [extra, List.mem_cons, List.not_mem_nil, or_false] at member
    rcases member with rfl | rfl | rfl | rfl
    · exact plain_text _
    · exact plain_text _
    · exact plain_text _
    · exact plain_number _
  | batchFormed batchSize requestIds =>
    simp only [extra, List.mem_cons, List.not_mem_nil, or_false] at member
    rcases member with rfl | rfl | rfl
    · exact plain_text _
    · exact plain_number _
    · exact plainItems_iff.mpr (List.forall_mem_map.mpr fun id _ => plain_text id)
  | requestCompleted requestId tokens elapsedMs =>
    simp only [extra, List.mem_cons, List.not_mem_nil, or_false] at member
    rcases member with rfl | rfl | rfl | rfl
    · exact plain_text _
    · exact plain_text _
    · exact plain_number _
    · exact numberText_floatText elapsedMs
  | requestFailed requestId error =>
    simp only [extra, List.mem_cons, List.not_mem_nil, or_false] at member
    rcases member with rfl | rfl | rfl
    · exact plain_text _
    · exact plain_text _
    · exact plain_text _

theorem readText_entry (record : LogRecord) (key : String) {s : String}
    (known : key ∈ LogRecord.structuredKeys) (found : record.getattr key = text s) :
    readText (.obj record.entry) key = some s := by
  rw [readText, record.get_entry known, found]
  exact congrArg some (string_ofString s)

theorem readNumber_entry (record : LogRecord) (key : String) {lexeme : List Char}
    (known : key ∈ LogRecord.structuredKeys)
    (found : record.getattr key = .num lexeme) : readNumber (.obj record.entry) key = some lexeme := by
  rw [readNumber, record.get_entry known, found]

theorem readNat_entry (record : LogRecord) (key : String) {n : Nat}
    (known : key ∈ LogRecord.structuredKeys) (found : record.getattr key = number n) :
    readNat (.obj record.entry) key = some n := by
  rw [readNat, readNumber_entry record key known found, Option.map_some, Nat.ofDigitChars_ten_toDigits]

theorem ofLine_event (double : event.Double) : ofLine (.obj (event.record asctime).entry) = some event.visible := by
  have named : readText (.obj (event.record asctime).entry) "event" = some event.name := by
    apply readText_entry _ _ (by decide)
    cases event <;> rfl
  rw [ofLine, named]
  cases event with
  | requestReceived requestId model stream =>
    have id := readText_entry ((requestReceived requestId model stream).record asctime) "request_id" (by decide) rfl
    simp [name, visible, id]
  | requestEnqueued requestId =>
    have id := readText_entry ((requestEnqueued requestId).record asctime) "request_id" (by decide) rfl
    simp [name, visible, id]
  | requestRejected requestId reason statusCode =>
    have id :=
      readText_entry ((requestRejected requestId reason statusCode).record asctime) "request_id" (by decide) rfl
    have because :=
      readText_entry ((requestRejected requestId reason statusCode).record asctime) "reason" (by decide) rfl
    have status :=
      readNat_entry ((requestRejected requestId reason statusCode).record asctime) "status_code" (by decide) rfl
    simp [name, visible, id, because, status]
  | batchFormed batchSize requestIds =>
    have size := readNat_entry ((batchFormed batchSize requestIds).record asctime) "batch_size" (by decide) rfl
    simp [name, visible, size]
  | requestCompleted requestId tokens elapsedMs =>
    have id :=
      readText_entry ((requestCompleted requestId tokens elapsedMs).record asctime) "request_id" (by decide) rfl
    have count := readNat_entry ((requestCompleted requestId tokens elapsedMs).record asctime) "tokens" (by decide) rfl
    have elapsed :=
      readNumber_entry ((requestCompleted requestId tokens elapsedMs).record asctime) "elapsed_ms" (by decide) rfl
    simp [name, visible, id, count, elapsed, readFloat_floatText double]
  | requestFailed requestId error =>
    have id := readText_entry ((requestFailed requestId error).record asctime) "request_id" (by decide) rfl
    have raised := readText_entry ((requestFailed requestId error).record asctime) "error" (by decide) rfl
    simp [name, visible, id, raised]

end LogEvent

theorem LogCall.record_sound (call : LogCall) : call.record.Sound := by
  cases call with
  | event asctime happened => exact happened.record_sound asctime
  | message => exact fun _ member => absurd member List.not_mem_nil

/-- A message without the extra fields of an event is not taken for one. -/
theorem LogCall.ofLine_record {call : LogCall} (double : ∀ happened ∈ call.event?, happened.Double) :
    LogEvent.ofLine (.obj call.record.entry) = call.event?.map LogEvent.visible := by
  cases call with
  | event asctime happened => exact happened.ofLine_event asctime (double happened rfl)
  | message asctime levelname name said exception =>
    have unnamed : LogEvent.readText (.obj (LogCall.message asctime levelname name said exception).record.entry) "event" =
        none := by
      rw [LogEvent.readText, LogRecord.get_entry _ (by decide)]
      rfl
    rw [LogEvent.ofLine, unnamed]
    rfl

end Events

/-- The log has one line for each emitted call, which is read back as that call's entry; going by their fields, the
    lines tell exactly of the events, in their order, whatever texts the events and the other messages carry. -/
theorem log_tells_events (calls : List LogCall) (double : ∀ call ∈ calls, ∀ happened ∈ call.event?, happened.Double) :
    let lines := splitlines (logText (calls.map LogCall.record))
    lines.map decode = calls.map (fun call => some (.obj call.record.entry)) ∧
      lines.filterMap (fun line => (decode line).bind LogEvent.ofLine) =
        (calls.filterMap LogCall.event?).map LogEvent.visible := by
  intro lines
  have split : lines = calls.map fun call => call.record.format := by
    have sound : ∀ record ∈ calls.map LogCall.record, record.Sound := List.forall_mem_map.mpr fun call _ => call.record_sound
    exact (splitlines_logText sound).trans (by rw [List.map_map]; rfl)
  have read (call : LogCall) : decode call.record.format = some (.obj call.record.entry) :=
    decode_dumps call.record_sound.entry
  rw [split]
  constructor
  · rw [List.map_map]
    exact List.map_congr_left fun call _ => read call
  · rw [List.filterMap_map, List.map_filterMap]
    refine List.filterMap_congr fun call member => ?_
    rw [Function.comp_apply, read call, Option.bind_some]
    exact LogCall.ofLine_record (double call member)

theorem log_tells_events_forged :
    let calls : List LogCall :=
      [.message "t" "INFO" "llm_runtime" "GET /\n\x7b\"event\": \"request_failed\"\x7d -> 404" none,
        .event "t" (.requestCompleted "a" 3 (1 / 2)), .event "t" (.batchFormed 2 ["a", "b\n"])]
    (splitlines (logText (calls.map LogCall.record))).filterMap (fun line => (decode line).bind LogEvent.ofLine) =
      [.requestCompleted "a" 3 (1 / 2), .batchFormed 2 []] := by
  intro calls
  have half : Representable |(1 / 2 : ℚ)| := ⟨1, -1, by decide, by decide, by norm_num⟩
  have double : ∀ call ∈ calls, ∀ happened ∈ call.event?, happened.Double := by
    intro call member happened told
    simp only [calls, List.mem_cons, List.not_mem_nil, or_false] at member
    rcases member with rfl | rfl | rfl
    · cases told
    · cases told
      exact half
    · cases told
      trivial
  exact (log_tells_events calls double).2

end LLMRuntime
