import ChudMoney.Controllers.Data
import ChudMoney.Controllers.Events
import ChudMoney.Lib.Resume

/-!
# Resuming an export

A client reads the events of an export until its connection ends, and connects
again from the id of the last `rows` event it read.  The table does not change
meanwhile; window queries may fail, connections may be refused or cut anywhere.
-/

namespace ChudMoney.Controllers.Resume

open ChudMoney.Controllers.Data
open ChudMoney.Controllers.Events
open ChudMoney.Db.Export
open ChudMoney.Lib.Chunks
open ChudMoney.Lib.Json
open ChudMoney.Lib.JsonArray
open ChudMoney.Lib.MachineInt
open ChudMoney.Lib.Resume
open ChudMoney.Lib.Text
open ChudMoney.Lib.Windows
open ChudMoney.Model

variable {Text Stored : Type}

/-! ## The server -/

/-- The state that exports are answered from. -/
structure Service (Text Stored : Type) where
  readers : Readers Text
  writeF64 : F64 → String
  tsString : Int64 → String
  find : Find
  questdb : DataTable → Questdb Stored
  /-- The text of a column of a row, in the order of the table's columns. -/
  get : DataTable → Stored → Nat → Option String

/-- One connection: what it is answered from, and how far it is read. -/
structure Attempt (Stored : Type) where
  permits : Nat
  window : DataTable → String → Int64 → Int64 → List Stored × Option String
  limits : BatchLimits
  elapsedMs : Nat
  fuel : Nat
  /-- The client resumes with `start` instead of `Last-Event-ID`. -/
  viaStart : Bool
  /-- The number of events received before the connection is lost. -/
  seen : Nat

namespace Service

/-- A row as the export writes it. -/
def dataRow (service : Service Text Stored) (table : DataTable)
    (row : Stored) : DataRow :=
  Db.Export.dataRow service.writeF64 table.columns (service.get table row)

/-- The table as one connection's queries see it. -/
def table (service : Service Text Stored) (attempt : Attempt Stored)
    (table : DataTable) : Questdb Stored :=
  { service.questdb table with window := attempt.window table }

/-- The events that a request is answered with; none if it is refused. -/
def respond (service : Service Text Stored) (attempt : Attempt Stored)
    (request : Request) : List Event :=
  match accept service.readers service.find attempt.permits request with
  | .error _ => []
  | .ok admitted =>
      match exported (service.table attempt admitted.table) admitted
          attempt.fuel with
      | none => []
      | some out =>
          match out.range with
          | none => noEvents service.tsString admitted.table admitted.key
          | some range =>
              let rows := out.rows.map fun row =>
                .ok (service.dataRow admitted.table row)
              events service.tsString admitted.table admitted.key range
                (rows ++ out.error.toList.map .error) attempt.limits
                attempt.elapsedMs

end Service

/-! ## The client -/

/-- What a client knows between two connections. -/
structure Client where
  /-- Where to resume from: the last id, or what the last `error` said. -/
  place : Option String
  received : List String
  /-- The ids that connections resumed from. -/
  resumes : List String
  finished : Bool

namespace Client

def new : Client where
  place := none
  received := []
  resumes := []
  finished := false

/-- The original request, from where the client is to resume. -/
def request (client : Client) (original : Request) (viaStart : Bool) :
    Request :=
  match client.place with
  | none => original
  | some id =>
      if viaStart then
        { original with
          range := { original.range with start := some id }
          lastEventId := none }
      else { original with lastEventId := some id }

/-- `resume_from` in the body of an `error` event. -/
def resumeFrom : Body → Option String
  | .json (.object entries) =>
      (entries.lookup "resume_from").bind Value.asString
  | _ => none

/-- The array of rows in the body of a `rows` event. -/
def rowTexts : Body → List String
  | .text text => (readArray text).getD []
  | .json _ => []

def receive (client : Client) (event : Event) : Client :=
  if event.name = "rows" then
    { client with
      received := client.received ++ rowTexts event.data
      place := event.id.or client.place }
  else if event.name = "error" then
    { client with place := (resumeFrom event.data).or client.place }
  else if event.name = "done" then { client with finished := true }
  else client

/-- One connection; none is made once `done` was received. -/
def connect (service : Service Text Stored) (original : Request)
    (client : Client) (attempt : Attempt Stored) : Client :=
  if client.finished then client
  else
    let events :=
      service.respond attempt (client.request original attempt.viaStart)
    (events.take attempt.seen).foldl receive
      { client with resumes := client.resumes ++ client.place.toList }

end Client

/-- What a client has after these connections. -/
def session (service : Service Text Stored) (original : Request)
    (attempts : List (Attempt Stored)) : Client :=
  attempts.foldl (Client.connect service original) .new

/-! ## What is relied on -/

/--
What is relied on outside this repository: queries and bounds are those of the
table, the texts of timestamps read back, instants are those of chrono, and
the text of a double has no bracket, quote or comma.
-/
structure Service.Relied (service : Service Text Stored) : Prop where
  lawful : ∀ table, (service.questdb table).Lawful
  times : ∀ table, ∀ row ∈ (service.questdb table).rows,
    parseTs service.readers (service.dataRow table row).ts =
      some ((service.questdb table).ts row)
  instants : ∀ text instant,
    service.readers.parseFromRfc3339 text = some instant → InChrono instant
  doubles : ∀ value, IsElement 1 (service.writeF64 value)

/-- The connection's queries return first rows of their windows. -/
def Attempt.Answered (service : Service Text Stored)
    (attempt : Attempt Stored) : Prop :=
  ∀ table, (service.questdb table).Answers (attempt.window table)

/-! ## One connection -/

section Connection

variable (service : Service Text Stored) (admitted : Admitted)

/-- The rows that an admitted request asks for. -/
def wanted : List Stored :=
  ((service.questdb admitted.table).ofKey admitted.key).filter fun row =>
    Requested (service.questdb admitted.table) admitted row

/-- The event of a batch of stored rows. -/
def rowsOf (table : DataTable) (batch : List Stored) : Event :=
  batchEvent (batch.map (service.dataRow table))

/-- The time that an id stands for. -/
def idTime (id : String) : Option Int :=
  (parseTs service.readers id).map Int64.toInt

/-- An answer: the rows sent in batches, and those that were not. -/
structure Answer (events : List Event) (batches : List (List Stored))
    (rest : List Stored) : Prop where
  perm : (batches.flatten ++ rest).Perm (wanted service admitted)
  sorted : (batches.flatten ++ rest).Pairwise fun first second =>
    (service.questdb admitted.table).time first ≤
      (service.questdb admitted.table).time second
  sent : ∃ first last,
    events = first :: (batches.map (rowsOf service admitted.table) ++ [last]) ∧
      first.name = "meta" ∧
      (last.name = "done" ∧ rest = [] ∨
        last.name = "error" ∧ Client.resumeFrom last.data =
          lastTs (batches.flatten.map (service.dataRow admitted.table)))

end Connection

variable {service : Service Text Stored} {admitted : Admitted}

/-- Batches of what rows are mapped to are batches of the rows. -/
theorem batches_of_map {Item : Type} (f : Stored → Item) {rows : List Stored}
    {batches : List (List Item)} (cut : batches.flatten = rows.map f) :
    ∃ parts : List (List Stored),
      parts.flatten = rows ∧ batches = parts.map (List.map f) := by
  induction batches generalizing rows with
  | nil =>
      have none_ : rows = [] := by simpa using cut.symm
      exact ⟨[], none_.symm, rfl⟩
  | cons batch batches ih =>
      rw [List.flatten_cons, eq_comm, List.map_eq_append_iff] at cut
      rcases cut with ⟨part, later, rfl, rfl, rest⟩
      rcases ih rest.symm with ⟨parts, rfl, rfl⟩
      exact ⟨part :: parts, rfl, rfl⟩

theorem readRows_append (rows : List DataRow) (error : Option String) :
    readRows (rows.map Except.ok ++ error.toList.map Except.error) = rows ∧
      readError (rows.map Except.ok ++ error.toList.map Except.error) =
        error := by
  induction rows with
  | nil => cases error <;> exact ⟨rfl, rfl⟩
  | cons row rows ih =>
      exact ⟨congrArg (row :: ·) ih.1, ih.2⟩

/-- With readable times the table's last `ts` has a successor. -/
theorem endFits (relied : service.Relied) (table : DataTable) :
    EndFits (service.questdb table) := by
  intro row member greatest
  have parsed := relied.times table row member
  rw [parseTs, greatest, Option.map_eq_some_iff] at parsed
  rcases parsed with ⟨instant, read, micros⟩
  have inChrono := relied.instants _ _ read
  have time := congrArg Int64.toInt micros
  rw [toInt_timestampMicros inChrono,
    show Int64.maxValue.toInt = 2 ^ 63 - 1 from rfl] at time
  have bound := inChrono.2
  omega

/-- The rows of the clipped range are those that are wanted. -/
theorem clipped_wanted (relied : service.Relied) {first last : Int64}
    (bounds : (service.questdb admitted.table).dataBounds =
      some (first, last)) :
    wanted service admitted =
      ((service.questdb admitted.table).ofKey admitted.key).filter fun row =>
        (clipStart first admitted.start).toInt ≤
            (service.questdb admitted.table).time row ∧
          (service.questdb admitted.table).time row <
            (clipEnd last admitted.end).toInt := by
  have lawful := relied.lawful admitted.table
  rcases lawful.bounds first last bounds with ⟨inside, -, greatest⟩
  rcases greatest with ⟨lastRow, lastMember, rfl⟩
  have below := endFits relied admitted.table lastRow lastMember
  apply List.filter_congr
  intro row member
  apply decide_eq_decide.mpr
  rw [requested_iff_clipped below (inside row (mem_ofKey member)),
    Int64.le_iff_toInt_le, Int64.lt_iff_toInt_lt]
  rfl

theorem clip_some {bounds : Option (Int64 × Int64)}
    {start «end» : Option Int64} {startUs endUs : Int64}
    (clipped : clip bounds start «end» = some (startUs, endUs)) :
    ∃ first last, bounds = some (first, last) ∧
      startUs = clipStart first start ∧ endUs = clipEnd last «end» := by
  cases bounds with
  | none => cases clipped
  | some ends =>
      rw [clip] at clipped
      split at clipped
      next =>
        cases clipped
        exact ⟨_, _, rfl, rfl, rfl⟩
      next => cases clipped

/-- Nothing is wanted of a range that is clipped to nothing. -/
theorem wanted_of_clip_none (relied : service.Relied)
    (clipped : clip (service.questdb admitted.table).dataBounds
      admitted.start admitted.end = none) : wanted service admitted = [] := by
  cases bounds : (service.questdb admitted.table).dataBounds with
  | none =>
      have empty := (relied.lawful admitted.table).empty.mp bounds
      simp [wanted, Questdb.ofKey, empty]
  | some ends =>
      rcases ends with ⟨first, last⟩
      rw [bounds, clip] at clipped
      split at clipped
      next => cases clipped
      next inverted =>
        rw [clipped_wanted relied bounds, List.filter_eq_nil_iff]
        intro row member inside
        have both := of_decide_eq_true inside
        exact inverted (Int64.lt_iff_toInt_lt.mpr
          (lt_of_le_of_lt both.1 both.2))

/-- A request for times that the table has no rows at. -/
theorem respond_outside (relied : service.Relied) {attempt : Attempt Stored}
    {request : Request}
    (accepted : accept service.readers service.find attempt.permits request =
      .ok admitted)
    (clipped : clip (service.questdb admitted.table).dataBounds
      admitted.start admitted.end = none) :
    ∃ batches rest,
      Answer service admitted (service.respond attempt request) batches
        rest := by
  refine ⟨[], [], ?_, List.Pairwise.nil, ?_⟩
  · rw [wanted_of_clip_none relied clipped]
    rfl
  · have out : exported (service.table attempt admitted.table) admitted
        attempt.fuel = some ⟨none, [], none⟩ := by
      rw [exported]
      simp only [Service.table, clipped]
    have sent : service.respond attempt request =
        noEvents service.tsString admitted.table admitted.key := by
      simp only [Service.respond, accepted, out]
    exact ⟨_, _, sent, rfl, Or.inl ⟨rfl, rfl⟩⟩

/-- What is exported between the clipped bounds is what the windows hold. -/
theorem exported_of_clip (attempt : Attempt Stored) {startUs endUs : Int64}
    (clipped : clip (service.questdb admitted.table).dataBounds
      admitted.start admitted.end = some (startUs, endUs)) :
    exported (service.table attempt admitted.table) admitted attempt.fuel =
      (walk (attempt.window admitted.table admitted.key) endUs
        attempt.fuel startUs windowStart).map fun out =>
          ⟨some (startUs, endUs), out.1, out.2⟩ := by
  rw [exported]
  simp only [Service.table, clipped, streamData]

/-- The events of an export: its rows are cut where a batch is full. -/
theorem events_chunks (tsString : Int64 → String) (table : DataTable)
    (key : String) (range : Int64 × Int64) (rows : List DataRow)
    (error : Option String) (limits : BatchLimits) (elapsedMs : Nat) :
    events tsString table key range
        (rows.map Except.ok ++ error.toList.map Except.error) limits
        elapsedMs =
      metaEvent tsString table key (some range) ::
        (chunks (Full limits) [] rows).map batchEvent ++
          [ending tsString range elapsedMs error rows.length
            (lastTs rows)] := by
  have sent := @sendRows_of tsString range elapsedMs limits [] 0 none
    (rows.map Except.ok ++ error.toList.map Except.error)
  rw [(readRows_append rows error).1, (readRows_append rows error).2] at sent
  have batches : (chunks (Full limits) [] rows).map
      (fun batch => rowsEvent (.of batch)) =
        (chunks (Full limits) [] rows).map batchEvent := by
    apply List.map_congr_left
    intro batch member
    exact rowsEvent_of (ne_nil_of_mem_chunks member)
  rw [events, new_eq, sent, batches]
  simp

/-- A request whose windows are walked to an end. -/
theorem respond_walked (relied : service.Relied) {attempt : Attempt Stored}
    (answered : attempt.Answered service) {request : Request}
    (accepted : accept service.readers service.find attempt.permits request =
      .ok admitted)
    {startUs endUs : Int64}
    (clipped : clip (service.questdb admitted.table).dataBounds
      admitted.start admitted.end = some (startUs, endUs))
    {out : List Stored × Option String}
    (walked : walk (attempt.window admitted.table admitted.key) endUs
      attempt.fuel startUs windowStart = some out) :
    ∃ batches rest,
      Answer service admitted (service.respond attempt request) batches
        rest := by
  have exports := exported_of_clip attempt clipped
  rw [walked, Option.map_some] at exports
  have positive : 0 < windowStart.toInt := by decide
  rcases walk_answers (answered admitted.table) admitted.key endUs
    positive walked with ⟨rest, slice, whole⟩
  rcases clip_some clipped with ⟨first, last, bounds, rfl, rfl⟩
  have sent := events_chunks service.tsString admitted.table admitted.key
    (clipStart first admitted.start, clipEnd last admitted.end)
    (out.1.map (service.dataRow admitted.table)) out.2 attempt.limits
    attempt.elapsedMs
  rcases batches_of_map _ (@flatten_chunks DataRow (Full attempt.limits) _ []
    (out.1.map (service.dataRow admitted.table))) with ⟨parts, cut, isCut⟩
  rw [isCut] at sent
  refine ⟨parts, rest, ?_, ?_, ?_⟩
  · rw [cut, clipped_wanted relied bounds]
    exact slice.perm
  · rw [cut]
    exact slice.sorted
  · have answer : service.respond attempt request =
        events service.tsString admitted.table admitted.key
          (clipStart first admitted.start, clipEnd last admitted.end)
          ((out.1.map (service.dataRow admitted.table)).map Except.ok ++
            out.2.toList.map Except.error)
          attempt.limits attempt.elapsedMs := by
      simp only [Service.respond, accepted, exports, List.map_map]
      rfl
    have regrouped :
        (parts.map (List.map (service.dataRow admitted.table))).map
          batchEvent = parts.map (rowsOf service admitted.table) :=
      List.map_map
    rw [regrouped] at sent
    refine ⟨_, _, answer.trans sent, rfl, ?_⟩
    rw [cut]
    cases failed : out.2 with
    | none => exact Or.inl ⟨rfl, whole failed⟩
    | some e =>
        refine Or.inr ⟨rfl, ?_⟩
        dsimp only [errorEvent, jsonEvent, Client.resumeFrom]
        cases lastTs (out.1.map (service.dataRow admitted.table)) <;>
          rfl

/-- An admitted request is answered with rows that are wanted. -/
theorem respond_answer (relied : service.Relied) {attempt : Attempt Stored}
    (answered : attempt.Answered service) {request : Request}
    (accepted : accept service.readers service.find attempt.permits request =
      .ok admitted) :
    service.respond attempt request = [] ∨
      ∃ batches rest,
        Answer service admitted (service.respond attempt request) batches
          rest := by
  cases clipped : clip (service.questdb admitted.table).dataBounds
      admitted.start admitted.end with
  | none => exact Or.inr (respond_outside relied accepted clipped)
  | some range =>
      rcases range with ⟨startUs, endUs⟩
      cases walked : walk (attempt.window admitted.table admitted.key) endUs
          attempt.fuel startUs windowStart with
      | none =>
          left
          have exports := exported_of_clip attempt clipped
          rw [walked] at exports
          simp only [Service.respond, accepted, exports, Option.map_none]
      | some out =>
          exact Or.inr
            (respond_walked relied answered accepted clipped walked)

/-! ## One connection as the client sees it -/

variable {table : DataTable}

/-- A `rows` event is read back as the rows it was written from. -/
theorem receive_rowsOf (relied : service.Relied) (client : Client)
    (batch : List Stored) :
    client.receive (rowsOf service table batch) =
      { client with
        received := client.received ++
          batch.map fun row => (service.dataRow table row).json
        place := (lastTs (batch.map (service.dataRow table))).or
          client.place } := by
  have texts : readArray (arrayText
      ((batch.map (service.dataRow table)).map DataRow.json)) =
        some (batch.map fun row =>
          (service.dataRow table row).json) := by
    rw [List.map_map]
    apply readArray_arrayText
    intro item member
    rcases List.mem_map.mp member with ⟨row, _, rfl⟩
    exact isElement_dataRow relied.doubles _ _
  show { client with
    received := client.received ++ ((readArray (arrayText _)).getD [])
    place := _ } = _
  rw [texts]
  rfl

theorem foldl_receive_rowsOf (relied : service.Relied) (client : Client)
    (batches : List (List Stored)) :
    (batches.map (rowsOf service table)).foldl Client.receive client =
      { client with
        received := client.received ++ batches.flatten.map fun row =>
          (service.dataRow table row).json
        place := (lastTs (batches.flatten.map
          (service.dataRow table))).or client.place } := by
  induction batches generalizing client with
  | nil => simp [lastTs]
  | cons batch batches ih =>
      rw [List.map_cons, List.foldl_cons, receive_rowsOf relied, ih,
        List.flatten_cons, List.map_append, lastTs_append, Option.or_assoc]
      simp

/-- What a client has of an answer, wherever the connection is lost. -/
structure Received (service : Service Text Stored) (table : DataTable)
    (got left : List Stored) (client next : Client) : Prop where
  received : next.received = client.received ++
    got.map fun row => (service.dataRow table row).json
  place : next.place =
    (lastTs (got.map (service.dataRow table))).or client.place
  resumes : next.resumes = client.resumes
  finished : next.finished = true → client.finished = true ∨ left = []

/-- The first batches of an answer. -/
theorem received_batches (relied : service.Relied) (client : Client)
    (batches : List (List Stored)) (left : List Stored) :
    Received service table batches.flatten left client
      ((batches.map (rowsOf service table)).foldl Client.receive client) := by
  rw [foldl_receive_rowsOf relied]
  exact ⟨rfl, rfl, rfl, Or.inl⟩

theorem received_nothing (client : Client) (left : List Stored) :
    Received service table [] left client client :=
  ⟨(List.append_nil _).symm, rfl, rfl, Or.inl⟩

theorem receive_meta (client : Client) {event : Event}
    (isMeta : event.name = "meta") : client.receive event = client := by
  simp [Client.receive, isMeta]

/-- The last event says that nothing is left, or where to resume from. -/
theorem Received.last {got left : List Stored} {client next : Client}
    (received : Received service table got left client next) {last : Event}
    (ends : last.name = "done" ∧ left = [] ∨
      last.name = "error" ∧ Client.resumeFrom last.data =
        lastTs (got.map (service.dataRow table))) :
    Received service table got left client (next.receive last) := by
  rcases ends with ⟨isDone, nothing⟩ | ⟨isError, resume⟩
  · have step : next.receive last = { next with finished := true } := by
      simp [Client.receive, isDone]
    rw [step]
    exact ⟨received.received, received.place, received.resumes,
      fun _ => Or.inr nothing⟩
  · have step : next.receive last =
        { next with place := (Client.resumeFrom last.data).or next.place } := by
      simp [Client.receive, isError]
    rw [step]
    refine ⟨received.received, ?_, received.resumes, received.finished⟩
    rw [resume, received.place, ← Option.or_assoc, Option.or_self]

/-- Wherever a connection is lost, a client has the first rows of the answer. -/
theorem Answer.received (relied : service.Relied) {events : List Event}
    {batches : List (List Stored)} {rest : List Stored}
    (answer : Answer service admitted events batches rest) (client : Client)
    (seen : Nat) :
    ∃ got left, got ++ left = batches.flatten ++ rest ∧
      Received service admitted.table got left client
        ((events.take seen).foldl Client.receive client) := by
  rcases answer.sent with ⟨first, last, rfl, isMeta, ends⟩
  cases seen with
  | zero => exact ⟨[], _, rfl, received_nothing client _⟩
  | succ seen =>
      rw [List.take_succ_cons, List.foldl_cons, receive_meta client isMeta]
      by_cases cut : seen ≤ batches.length
      · refine ⟨(batches.take seen).flatten,
          (batches.drop seen).flatten ++ rest, ?_, ?_⟩
        · rw [← List.append_assoc, ← List.flatten_append,
            List.take_append_drop]
        · rw [List.take_append_of_le_length (by simpa using cut),
            ← List.map_take]
          exact received_batches relied client _ _
      · refine ⟨batches.flatten, rest, rfl, ?_⟩
        rw [List.take_of_length_le (by simp; omega), List.foldl_append]
        exact (received_batches relied client batches rest).last ends

/-! ## The request of a resumed connection -/

theorem parseRange_ok {readers : Readers Text} {start «end» : Option String}
    {startUs endUs : Option Int64}
    (parsed : parseRange readers start «end» = .ok (startUs, endUs)) :
    parseBound readers "start" start = .ok startUs ∧
      parseBound readers "end" «end» = .ok endUs := by
  unfold parseRange at parsed
  cases first : parseBound readers "start" start with
  | error e => simp [first, bind, Except.bind] at parsed
  | ok s =>
      cases second : parseBound readers "end" «end» with
      | error e => simp [first, second, bind, Except.bind] at parsed
      | ok e =>
          simp only [first, second, bind, Except.bind] at parsed
          split at parsed
          · split at parsed
            · cases parsed
            · cases parsed
              exact ⟨rfl, rfl⟩
          · cases parsed
            exact ⟨rfl, rfl⟩

theorem parseBound_some {readers : Readers Text} {name text : String}
    {us : Int64} (read : parseTs readers text = some us) :
    parseBound readers name (some text) = .ok (some us) := by
  simp [parseBound, read]

/-- A resumed request asks for the same, from the resume time on. -/
theorem accept_request {client : Client} {original : Request}
    {viaStart : Bool} {permits first : Nat} {next : Admitted}
    (readable : ∀ id ∈ client.place, (parseTs service.readers id).isSome)
    (accepted : accept service.readers service.find first original =
      .ok admitted)
    (resumed : accept service.readers service.find permits
      (client.request original viaStart) = .ok next) :
    next = { admitted with
      start := (client.place.bind (parseTs service.readers)).or
        admitted.start } := by
  rcases accept_ok accepted with
    ⟨market, start, found, table, key, range, from_, -⟩
  rcases accept_ok resumed with
    ⟨market', start', found', table', key', range', from', -⟩
  have asked : (client.request original viaStart).tag = original.tag ∧
      (client.request original viaStart).table = original.table ∧
      (client.request original viaStart).range.end = original.range.end := by
    unfold Client.request
    split
    · exact ⟨rfl, rfl, rfl⟩
    · split <;> exact ⟨rfl, rfl, rfl⟩
  rw [asked.1, found, Except.ok.injEq, Option.some.injEq] at found'
  subst found'
  rw [asked.2.1, table, Option.some.injEq] at table'
  rw [asked.1, ← table', key, Except.ok.injEq] at key'
  have ends := (parseRange_ok range').2
  rw [asked.2.2, (parseRange_ok range).2, Except.ok.injEq] at ends
  have starts : next.start =
      (client.place.bind (parseTs service.readers)).or admitted.start := by
    cases isPlace : client.place with
    | none =>
        rw [Client.request, isPlace] at range' from'
        rw [range, Except.ok.injEq, Prod.mk.injEq] at range'
        rw [from', ← range'.1, from_]
        rfl
    | some id =>
        rcases Option.isSome_iff_exists.mp (readable id isPlace) with ⟨us, read⟩
        rw [Client.request, isPlace] at range' from'
        cases viaStart with
        | true =>
            have bound := (parseRange_ok range').1
            simp only [if_true] at bound from'
            rw [parseBound_some read, Except.ok.injEq] at bound
            simp [from', ← bound, read]
        | false => simp [from', read]
  cases next
  simp_all

/-- What a request wants from the time of a wanted row on. -/
theorem wanted_resumed {row : Stored} (member : row ∈ wanted service admitted) :
    wanted service
        { admitted with
          start := some ((service.questdb admitted.table).ts row) } =
      onwards (service.questdb admitted.table).time (wanted service admitted)
        (some ((service.questdb admitted.table).time row)) := by
  have asked := of_decide_eq_true (List.mem_filter.mp member).2
  show List.filter _ _ = List.filter _ (List.filter _ _)
  rw [List.filter_filter]
  apply List.filter_congr
  intro other _
  rw [← Bool.decide_and]
  apply decide_eq_decide.mpr
  constructor
  · intro inRange
    have later := inRange.1 _ rfl
    refine ⟨Int64.le_iff_toInt_le.mp later, ?_, inRange.2⟩
    intro start isStart
    exact Int64.le_trans (asked.1 start isStart) later
  · rintro ⟨later, inRange⟩
    refine ⟨?_, inRange.2⟩
    rintro start ⟨⟩
    exact Int64.le_iff_toInt_le.mpr later

/-! ## All connections -/

/-- The times that a client's connections resumed from. -/
def resumeTimes (service : Service Text Stored) (client : Client) : List Int :=
  client.resumes.filterMap (idTime service)

/-- What a client knows covers what it received. -/
structure Tracks (service : Service Text Stored) (admitted : Admitted)
    (client : Client) (rows rest : List Stored) : Prop where
  received : client.received =
    rows.map fun row => (service.dataRow admitted.table row).json
  place : ∀ id ∈ client.place, ∃ row ∈ wanted service admitted,
    (service.dataRow admitted.table row).ts = id
  covered : Covered (service.questdb admitted.table).time
    (wanted service admitted) (client.place.bind (idTime service))
    (resumeTimes service client) rows rest
  finished : client.finished = true → rest = []

theorem tracks_new :
    Tracks service admitted .new [] (wanted service admitted) := by
  constructor
  · rfl
  · rintro id ⟨⟩
  · exact covered_start
  · rintro ⟨⟩

theorem idTime_dataRow (relied : service.Relied) {row : Stored}
    (member : row ∈ wanted service admitted) :
    parseTs service.readers (service.dataRow admitted.table row).ts =
        some ((service.questdb admitted.table).ts row) ∧
      idTime service (service.dataRow admitted.table row).ts =
        some ((service.questdb admitted.table).time row) := by
  have read := relied.times admitted.table row
    (mem_ofKey (List.mem_of_mem_filter member))
  exact ⟨read, by rw [idTime, read]; rfl⟩

/-- A resumed request wants what is wanted from the resume time on. -/
theorem Tracks.wanted_next (relied : service.Relied) {client : Client}
    {rows rest : List Stored}
    (tracks : Tracks service admitted client rows rest) :
    wanted service { admitted with
        start := (client.place.bind (parseTs service.readers)).or
          admitted.start } =
      onwards (service.questdb admitted.table).time (wanted service admitted)
        (client.place.bind (idTime service)) := by
  cases isPlace : client.place with
  | none => rfl
  | some id =>
      rcases tracks.place id isPlace with ⟨row, member, rfl⟩
      have reads := idTime_dataRow relied member
      simp only [Option.bind_some, reads.1, reads.2, Option.some_or]
      exact wanted_resumed member

/-- What is received of an answer is tracked. -/
theorem Tracks.receive (relied : service.Relied) {client next : Client}
    {rows rest got left : List Stored}
    (tracks : Tracks service admitted client rows rest)
    (unfinished : client.finished ≠ true)
    (delivered : Delivered (service.questdb admitted.table).time
      (wanted service admitted) (client.place.bind (idTime service)) got left)
    (received : Received service admitted.table got left
      { client with resumes := client.resumes ++ client.place.toList } next) :
    Tracks service admitted next (rows ++ got) left := by
  have gotWanted : ∀ row ∈ got, row ∈ wanted service admitted := by
    intro row member
    have listed := delivered.perm.mem_iff.mp (List.mem_append_left left member)
    exact (mem_onwards.mp listed).1
  have place : next.place = ((got.getLast?.map fun row =>
      (service.dataRow admitted.table row).ts)).or client.place := by
    rw [received.place, lastTs, List.getLast?_map, Option.map_map]
    rfl
  refine ⟨?_, ?_, ?_, ?_⟩
  · rw [received.received, tracks.received, List.map_append]
  · intro id isPlace
    rw [place] at isPlace
    cases isLast : got.getLast? with
    | none => exact tracks.place id (by simpa [isLast] using isPlace)
    | some last =>
        refine ⟨last, gotWanted last (List.mem_of_getLast? isLast), ?_⟩
        simpa [isLast] using isPlace
  · have covered := tracks.covered.next delivered
    have times : resumeTimes service next =
        resumeTimes service client ++
          (client.place.bind (idTime service)).toList := by
      rw [resumeTimes, received.resumes, List.filterMap_append]
      cases client.place <;> rfl
    have resumed : next.place.bind (idTime service) =
        resumeAt (service.questdb admitted.table).time
          (client.place.bind (idTime service)) got := by
      rw [place, resumeAt]
      cases isLast : got.getLast? with
      | none => rfl
      | some last =>
          have member := gotWanted last (List.mem_of_getLast? isLast)
          exact (idTime_dataRow relied member).2
    rw [times, resumed]
    exact covered
  · intro finished
    exact (received.finished finished).resolve_left unfinished

/-- One connection keeps what is tracked. -/
theorem Tracks.connect (relied : service.Relied) {original : Request}
    {first : Nat}
    (accepted : accept service.readers service.find first original =
      .ok admitted) {attempt : Attempt Stored}
    (answered : attempt.Answered service) {client : Client}
    {rows rest : List Stored}
    (tracks : Tracks service admitted client rows rest) :
    ∃ rows rest,
      Tracks service admitted (client.connect service original attempt) rows
        rest := by
  rw [Client.connect]
  by_cases finished : client.finished = true
  · rw [if_pos finished]
    exact ⟨rows, rest, tracks⟩
  rw [if_neg finished]
  have refused : Tracks service admitted
      { client with resumes := client.resumes ++ client.place.toList } rows
        rest := by
    refine ⟨tracks.received, tracks.place, ?_, tracks.finished⟩
    rw [resumeTimes, List.filterMap_append]
    exact tracks.covered.refused _
  have readable : ∀ id ∈ client.place,
      (parseTs service.readers id).isSome := by
    intro id isPlace
    rcases tracks.place id isPlace with ⟨row, member, rfl⟩
    rw [(idTime_dataRow relied member).1]
    rfl
  cases resumed : accept service.readers service.find attempt.permits
      (client.request original attempt.viaStart) with
  | error e =>
      have nothing : service.respond attempt
          (client.request original attempt.viaStart) = [] := by
        simp only [Service.respond, resumed]
      rw [nothing]
      exact ⟨rows, rest, by simpa using refused⟩
  | ok next =>
      have same := accept_request readable accepted resumed
      rcases respond_answer relied answered resumed with
        nothing | ⟨batches, unsent, answer⟩
      · rw [nothing]
        exact ⟨rows, rest, by simpa using refused⟩
      · rcases answer.received relied
          { client with resumes := client.resumes ++ client.place.toList }
          attempt.seen with ⟨got, left, parts, read⟩
        refine ⟨rows ++ got, left, ?_⟩
        subst same
        refine tracks.receive relied finished ⟨?_, ?_⟩ read
        · rw [parts, ← tracks.wanted_next relied]
          exact answer.perm
        · rw [parts]
          exact answer.sorted

/--
Whatever connections are refused, fail or are lost, a client that reaches
`done` has received every row that it asked for, and again only rows of a time
that it resumed from.
-/
theorem session_received {service : Service Text Stored}
    {admitted : Admitted} {original : Request} {permits : Nat}
    {attempts : List (Attempt Stored)} (relied : service.Relied)
    (answered : ∀ attempt ∈ attempts, attempt.Answered service)
    (accepted : accept service.readers service.find permits original =
      .ok admitted)
    (finished : (session service original attempts).finished = true) :
    ∃ rows again : List Stored,
      (session service original attempts).received =
        rows.map (fun row => (service.dataRow admitted.table row).json) ∧
      rows.Perm (wanted service admitted ++ again) ∧
      ∀ row ∈ again, row ∈ wanted service admitted ∧
        ∃ id ∈ (session service original attempts).resumes,
          parseTs service.readers id =
            some ((service.questdb admitted.table).ts row) := by
  have tracked : ∃ rows rest,
      Tracks service admitted (session service original attempts) rows
        rest := by
    clear finished
    induction attempts using List.reverseRecOn with
    | nil => exact ⟨_, _, tracks_new⟩
    | append_singleton attempts attempt ih =>
        rcases ih fun other member =>
          answered other (List.mem_append_left _ member) with
          ⟨rows, rest, tracks⟩
        rw [session, List.foldl_append]
        exact tracks.connect relied accepted (answered attempt (by simp))
  rcases tracked with ⟨rows, rest, tracks⟩
  have covered := tracks.covered
  rw [tracks.finished finished] at covered
  rcases covered.finished with ⟨again, perm, resumed⟩
  refine ⟨rows, again, tracks.received, perm, ?_⟩
  intro row member
  rcases resumed row member with ⟨isWanted, atResume⟩
  rcases List.mem_filterMap.mp atResume with ⟨id, isResume, time⟩
  rcases Option.map_eq_some_iff.mp time with ⟨us, parsed, same⟩
  refine ⟨isWanted, id, isResume, ?_⟩
  rw [parsed, Int64.toInt_inj.mp same]

/-! ## A resumed export -/

/-- The time of the rows below, as QuestDB prints it. -/
def printed (ts : Int64) : String :=
  "1970-01-01T00:00:00.00000" ++ toString ts.toInt ++ "Z"

/-- A table with two rows at one time, and the texts of its timestamps. -/
def bookService : Service Value (String × Int64) where
  readers :=
    { fromStr := some
      parseFromRfc3339 := fun text =>
        if text = printed 1 then some 1000
        else if text = printed 2 then some 2000
        else none }
  writeF64 _ := "0.5"
  tsString := printed
  find _ := .ok (some btc15m)
  questdb _ := .ofRows [("KXBTC15M", 2), ("KXBTC15M", 1), ("KXBTC15M", 2)]
  get table row place :=
    if place = table.columns.length - 1 then some (printed row.2) else none

/-- A connection that is read to its end. -/
def wholeAttempt : Attempt (String × Int64) where
  permits := 2
  window table := (bookService.questdb table).window
  limits := ⟨2, batchBytes⟩
  elapsedMs := 0
  fuel := 3
  viaStart := false
  seen := 9

/-- One connection is lost behind its first batch, one fails, one is whole. -/
def bookAttempts : List (Attempt (String × Int64)) :=
  [{ wholeAttempt with seen := 2 },
    { wholeAttempt with
      window := fun _ _ _ _ => ([], some "timeout")
      viaStart := true },
    wholeAttempt]

theorem bookService_relied : bookService.Relied := by
  constructor
  · intro table
    exact Questdb.lawful_ofRows _
  · intro table row member
    have rows : row = ("KXBTC15M", 2) ∨ row = ("KXBTC15M", 1) := by
      simpa [bookService, Questdb.ofRows, or_comm, or_left_comm] using member
    rcases rows with rfl | rfl <;> cases table <;> decide +kernel
  · intro text instant read
    dsimp only [bookService] at read
    split at read
    · cases read
      decide
    · split at read
      · cases read
        decide
      · cases read
  · intro value
    show IsElement 1 "0.5"
    decide

theorem session_received_bookService :
    ∃ rows again : List (String × Int64),
      (session bookService bookRequest bookAttempts).received =
        rows.map (fun row =>
          (bookService.dataRow bookAdmitted.table row).json) ∧
      rows.Perm (wanted bookService bookAdmitted ++ again) ∧
      ∀ row ∈ again, row ∈ wanted bookService bookAdmitted ∧
        ∃ id ∈ (session bookService bookRequest bookAttempts).resumes,
          parseTs bookService.readers id =
            some ((bookService.questdb bookAdmitted.table).ts row) := by
  apply session_received bookService_relied
  · intro attempt member
    simp only [bookAttempts, List.mem_cons, List.not_mem_nil,
      or_false] at member
    rcases member with rfl | rfl | rfl
    · exact fun table => (bookService_relied.lawful table).answers
    · exact fun table => Questdb.answers_failing _ _
    · exact fun table => (bookService_relied.lawful table).answers
  · show accept bookService.readers bookService.find 2 bookRequest =
      .ok bookAdmitted
    rfl
  · decide +kernel

end ChudMoney.Controllers.Resume
