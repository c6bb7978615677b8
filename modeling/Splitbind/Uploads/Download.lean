import Splitbind.Contracts.Schema
import Splitbind.Library.Traced
import Splitbind.ObjectKeys

/-!
# Downloads — a provider's body, read up to a limit and closed

The body is read in chunks of the provider's choice.  A body of more bytes than the limit is
refused after one byte more, and whatever happens the body is closed once.
-/

namespace Splitbind

open Transaction

/-! ## 1. What the provider may do -/

/-- An exception, as far as the handlers tell it from others; `interrupt` is a `BaseException`
that is no `Exception`. -/
inductive StorageError
  | unavailable (text : String)
  | rejected (code : String)
  | value (text : String)
  | type (text : String)
  | exception (text : String)
  | interrupt (text : String)
deriving DecidableEq, Repr

/-- `except Exception`. -/
def StorageError.isException : StorageError → Bool
  | .interrupt _ => false
  | _ => true

/-- `except (UploadRejected, TypeError, ValueError)`. -/
def StorageError.isPassed : StorageError → Bool
  | .rejected _ | .value _ | .type _ => true
  | _ => false

/-- What leaves the download: the exception, the one it was raised from or over, and its notes. -/
structure Thrown where
  error : StorageError
  context : Option StorageError
  notes : List String
deriving DecidableEq, Repr

/-- A body that gives `content` in chunks: how many bytes it gives depends on where it stands and
on how many it is asked for.  Behind its content it is at its end, or fails. -/
structure Reader where
  content : List UInt8
  fault : Option StorageError
  size : Nat → Nat → Nat
  size_spec : ∀ position amount, 1 ≤ amount →
    1 ≤ size position amount ∧ size position amount ≤ amount

def Reader.read (reader : Reader) (position amount : Nat) : Except StorageError (List UInt8) :=
  if position < reader.content.length then
    .ok ((reader.content.drop position).take (reader.size position amount))
  else
    match reader.fault with
    | some e => .error e
    | none => .ok []

/-- A body that may lack either method, and what `close()` does. -/
structure Body where
  reader : Option Reader
  close : Option (Except StorageError Unit)

/-- The answer of `get_object`. -/
structure Response where
  body : Option Body
  contentType : Option String

structure ObjectBytes where
  key : ObjectKey
  data : List UInt8
  contentType : Option String
  actualSha256 : Sha256
deriving DecidableEq, Repr

/-- The calls on a body: a read with what it asked for and what it got, and the close. -/
inductive BodyCall
  | read (amount received : Nat)
  | close
deriving DecidableEq, Repr

/-! ## 2. The download -/

/-- `collect_bounded_bytes(chunks(), max_bytes)` past its check: the generator counts what it has
streamed, the collector what it has collected, and the body stands where it stands. -/
def collectChunks (reader : Reader) (maxBytes position streamed : Nat) (collected : List UInt8) :
    Traced BodyCall StorageError (List UInt8) :=
  let amount := min (64 * 1024) (maxBytes - streamed + 1)
  match reader.read position amount with
  | .error e => ⟨[.read amount 0], .error e⟩
  | .ok chunk =>
    if chunk = [] then ⟨[.read amount 0], .ok collected⟩
    else if maxBytes - collected.length < chunk.length then
      ⟨[.read amount chunk.length], .error (.rejected "STORAGE_BYTE_LIMIT")⟩
    else
      let rest := collectChunks reader maxBytes (position + chunk.length)
        (streamed + chunk.length) (collected ++ chunk)
      ⟨.read amount chunk.length :: rest.events, rest.result⟩
termination_by maxBytes - collected.length
decreasing_by
  rename_i hne hroom
  have hpos : 0 < chunk.length := List.length_pos_of_ne_nil hne
  rw [List.length_append]
  omega

def collectBoundedBytes (runtimeMax : Nat) (reader : Reader) (maxBytes : Nat) :
    Traced BodyCall StorageError (List UInt8) :=
  if 1 ≤ maxBytes ∧ maxBytes ≤ runtimeMax then collectChunks reader maxBytes 0 0 []
  else .quiet (.error (.value "storage byte limit must be between one byte and ten MiB"))

/-- `validate_checksum`, which is a full match. -/
def validateChecksum (sha256 : String) : Except StorageError Unit :=
  raiseIf (¬ (sha256.toList.length = 64 ∧ sha256.toList.all isLowerHex = true))
    (.value "storage checksum must be a canonical SHA-256")

/-- The handlers of the reads: rejections pass, any other exception is the provider's. -/
def providerFailure (e : StorageError) : Thrown :=
  if e.isPassed then ⟨e, none, []⟩
  else if e.isException then ⟨.unavailable "storage provider request failed", some e, []⟩
  else ⟨e, none, []⟩

/-- The handler of a close that fails; an exception is the primary error, an interrupt is not. -/
def closeFailed {α : Type} (e : StorageError) : Except Thrown α → Except Thrown α
  | .ok _ =>
    if e.isException then .error ⟨.unavailable "storage response cleanup failed", some e, []⟩
    else .error ⟨e, none, []⟩
  | .error thrown =>
    if e.isException = false then .error ⟨e, some thrown.error, []⟩
    else if thrown.error.isException = false then
      .error ⟨.unavailable "storage response cleanup failed", some e, []⟩
    else .error { thrown with notes := thrown.notes ++ ["storage response cleanup failed"] }

/-- The `finally` block. -/
def closing {α : Type} (close : Option (Except StorageError Unit))
    (run : Traced BodyCall Thrown α) : Traced BodyCall Thrown α :=
  match close with
  | none => run
  | some (.ok _) => ⟨run.events ++ [.close], run.result⟩
  | some (.error e) => ⟨run.events ++ [.close], closeFailed e run.result⟩

section Download

variable (sha256 : List UInt8 → Sha256)

def verifiedObjectBytes (key : ObjectKey) (data : List UInt8) (contentType : Option String)
    (expectedSha256 : Option String) : Except StorageError ObjectBytes := do
  match expectedSha256 with
  | none => return ⟨key, data, contentType, sha256 data⟩
  | some expected =>
    validateChecksum expected
    raiseIf ((sha256 data).text ≠ expected) (.rejected "STORAGE_CHECKSUM_MISMATCH")
    return ⟨key, data, contentType, sha256 data⟩

/-- The outer `try` block of `download_bytes`. -/
def readBody (runtimeMax : Nat) (key : ObjectKey) (maxBytes : Nat) (expectedSha256 : String)
    (response : Response) : Traced BodyCall Thrown ObjectBytes :=
  match response.body.bind Body.reader with
  | none => .quiet (.error ⟨.unavailable "storage provider request failed", none, []⟩)
  | some reader =>
    let collected := collectBoundedBytes runtimeMax reader maxBytes
    ⟨collected.events, match collected.result with
      | .error e => .error (providerFailure e)
      | .ok data =>
        (verifiedObjectBytes sha256 key data response.contentType (some expectedSha256)).mapError
          fun e ↦ ⟨e, none, []⟩⟩

/-- `download_bytes` of a controlled key; `answer` is what `get_object` does. -/
def downloadBytes (runtimeMax : Nat) (key : ObjectKey) (maxBytes : Nat) (expectedSha256 : String)
    (answer : Except StorageError Response) : Traced BodyCall Thrown ObjectBytes :=
  match validateChecksum expectedSha256 with
  | .error e => .quiet (.error ⟨e, none, []⟩)
  | .ok _ =>
    match answer with
    | .error e =>
      if e.isException then
        .quiet (.error ⟨.unavailable "storage provider request failed", some e, []⟩)
      else .quiet (.error ⟨e, none, []⟩)
    | .ok response => closing (response.body.bind Body.close)
        (readBody sha256 runtimeMax key maxBytes expectedSha256 response)

end Download

/-! ## 3. The reads -/

/-- Every read asks for no more than what is left of the total, counting the bytes received. -/
def AsksWithin (total : Nat) : Nat → List BodyCall → Prop
  | _, [] => True
  | received, .read amount got :: rest =>
    received + amount ≤ total ∧ AsksWithin total (received + got) rest
  | received, .close :: rest => AsksWithin total received rest

theorem asksWithin_append_close {total received : Nat} {calls : List BodyCall}
    (h : AsksWithin total received calls) : AsksWithin total received (calls ++ [.close]) := by
  induction calls generalizing received with
  | nil => trivial
  | cons call calls ih =>
    cases call with
    | read amount got => exact ⟨h.1, ih h.2⟩
    | close => exact ih h

/-- Within the content a read gives the next bytes, one at least. -/
theorem read_chunk (reader : Reader) {position amount : Nat} (hamount : 1 ≤ amount)
    (h : position < reader.content.length) : ∃ chunk, reader.read position amount = .ok chunk ∧
      chunk ≠ [] ∧ chunk.length ≤ amount ∧ position + chunk.length ≤ reader.content.length ∧
        reader.content.take position ++ chunk =
          reader.content.take (position + chunk.length) := by
  obtain ⟨hpos, hle⟩ := reader.size_spec position amount hamount
  have hlength : ((reader.content.drop position).take (reader.size position amount)).length =
      min (reader.size position amount) (reader.content.length - position) := by
    rw [List.length_take, List.length_drop]
  refine ⟨_, if_pos h, List.ne_nil_of_length_pos ?_, ?_, ?_, ?_⟩
  · rw [hlength]
    omega
  · rw [hlength]
    omega
  · rw [hlength]
    omega
  · rw [List.take_add, List.append_cancel_left_eq, hlength, ← List.length_drop]
    exact (List.take_eq_take_min ..)

/-- What the reads come to. -/
def Reader.collected (reader : Reader) (maxBytes : Nat) : Except StorageError (List UInt8) :=
  if maxBytes < reader.content.length then .error (.rejected "STORAGE_BYTE_LIMIT")
  else
    match reader.fault with
    | some e => .error e
    | none => .ok reader.content

/-- One read of the loop, which stands at `n` bytes. -/
def readAmount (maxBytes n : Nat) : Nat := min (64 * 1024) (maxBytes - n + 1)

theorem collectChunks_atEnd (reader : Reader) {maxBytes n : Nat} (collected : List UInt8)
    (h : reader.content.length ≤ n) : collectChunks reader maxBytes n n collected =
      ⟨[.read (readAmount maxBytes n) 0], match reader.fault with
        | some e => .error e
        | none => .ok collected⟩ := by
  rw [collectChunks, Reader.read, if_neg (not_lt.mpr h)]
  cases reader.fault <;> rfl

theorem collectChunks_chunk (reader : Reader) {maxBytes n : Nat} (collected : List UInt8)
    {chunk : List UInt8} (hread : reader.read n (readAmount maxBytes n) = .ok chunk)
    (hne : chunk ≠ []) : collectChunks reader maxBytes n n collected =
      if maxBytes - collected.length < chunk.length then
        ⟨[.read (readAmount maxBytes n) chunk.length], .error (.rejected "STORAGE_BYTE_LIMIT")⟩
      else
        ⟨.read (readAmount maxBytes n) chunk.length :: (collectChunks reader maxBytes
            (n + chunk.length) (n + chunk.length) (collected ++ chunk)).events,
          (collectChunks reader maxBytes (n + chunk.length) (n + chunk.length)
            (collected ++ chunk)).result⟩ := by
  rw [collectChunks]
  show (match reader.read n (readAmount maxBytes n) with
    | .error e => _
    | .ok chunk => _) = _
  rw [hread]
  exact if_neg hne

/-- From wherever the loop stands; the bytes that the limit leaves decrease. -/
theorem collectChunks_spec (reader : Reader) {maxBytes n : Nat} (hlimit : n ≤ maxBytes)
    (hn : n ≤ reader.content.length) :
    AsksWithin (maxBytes + 1) n (collectChunks reader maxBytes n n (reader.content.take n)).events ∧
      .close ∉ (collectChunks reader maxBytes n n (reader.content.take n)).events ∧
      (collectChunks reader maxBytes n n (reader.content.take n)).result =
        reader.collected maxBytes := by
  have hamount : 1 ≤ readAmount maxBytes n ∧ n + readAmount maxBytes n ≤ maxBytes + 1 := by
    rw [readAmount]
    omega
  have hlength : (reader.content.take n).length = n := by
    rw [List.length_take, Nat.min_eq_left hn]
  by_cases hmore : n < reader.content.length
  · obtain ⟨chunk, hread, hne, hle, hfits, hwhole⟩ := read_chunk reader hamount.1 hmore
    have hpos : 0 < chunk.length := List.length_pos_of_ne_nil hne
    rw [collectChunks_chunk reader _ hread hne, hlength]
    split_ifs with hover
    · refine ⟨⟨hamount.2, trivial⟩, by simp, ?_⟩
      rw [Reader.collected, if_pos (by omega)]
    · rw [hwhole]
      obtain ⟨hasks, hclose, hresult⟩ :=
        collectChunks_spec reader (n := n + chunk.length) (show _ ≤ maxBytes by omega) hfits
      exact ⟨⟨hamount.2, hasks⟩, by simpa using hclose, hresult⟩
  · have hend : n = reader.content.length := le_antisymm hn (not_lt.mp hmore)
    rw [collectChunks_atEnd reader _ hend.ge]
    refine ⟨⟨hamount.2, trivial⟩, by simp, ?_⟩
    rw [Reader.collected, if_neg (by omega), hend, List.take_length]
termination_by maxBytes - n

/-! ## 4. The law of a download -/

section Law

variable (sha256 : List UInt8 → Sha256) (key : ObjectKey) (contentType : Option String)

/-- The first thing that goes wrong: too many bytes, a read that fails, or other bytes. -/
def Reader.firstThrown (reader : Reader) (maxBytes : Nat) (expectedSha256 : String) :
    Option Thrown :=
  if maxBytes < reader.content.length then some ⟨.rejected "STORAGE_BYTE_LIMIT", none, []⟩
  else
    match reader.fault with
    | some e =>
      if e.isException then some ⟨.unavailable "storage provider request failed", some e, []⟩
      else some ⟨e, none, []⟩
    | none =>
      if (sha256 reader.content).text = expectedSha256 then none
      else some ⟨.rejected "STORAGE_CHECKSUM_MISMATCH", none, []⟩

/-- A download that asks for one byte more than its limit at most, ends with the first thing that
goes wrong or with the body's bytes, and closes the body once, as the last thing. -/
structure BoundedDownload (reader : Reader) (close : Except StorageError Unit) (maxBytes : Nat)
    (expectedSha256 : String) (run : Traced BodyCall Thrown ObjectBytes) : Prop where
  asks : AsksWithin (maxBytes + 1) 0 run.events
  closes : ∃ reads, run.events = reads ++ [.close] ∧ .close ∉ reads
  thrown : ∀ first, reader.firstThrown sha256 maxBytes expectedSha256 = some first →
    ∃ notes, run.result = .error { first with notes := notes }
  returned : reader.firstThrown sha256 maxBytes expectedSha256 = none → close = .ok () →
    run.result = .ok ⟨key, reader.content, contentType, sha256 reader.content⟩
  cleanup : reader.firstThrown sha256 maxBytes expectedSha256 = none → ∀ e, close = .error e →
    ∃ thrown, run.result = .error thrown

/-- No read that is made raises what the handlers take for a rejection; and if closing fails, it
fails with an exception, or fails first, and no interrupt came before it. -/
structure PlainFailures (reader : Reader) (close : Except StorageError Unit) (maxBytes : Nat)
    (expectedSha256 : String) : Prop where
  read : ∀ e, reader.fault = some e → reader.content.length ≤ maxBytes → e.isPassed = false
  interrupted : ∀ e, reader.fault = some e → reader.content.length ≤ maxBytes →
    e.isException = false → close = .ok ()
  close : ∀ e, close = .error e → e.isException = false →
    reader.content.length ≤ maxBytes ∧ reader.fault = none ∧
      (sha256 reader.content).text = expectedSha256

variable {reader : Reader} {close : Except StorageError Unit}
  {runtimeMax maxBytes : Nat} {expectedSha256 : String}

/-- What the `try` block ends with. -/
def Reader.primary (sha256 : List UInt8 → Sha256) (key : ObjectKey) (contentType : Option String)
    (reader : Reader) (maxBytes : Nat) (expectedSha256 : String) : Except Thrown ObjectBytes :=
  match reader.collected maxBytes with
  | .error e => .error (providerFailure e)
  | .ok data =>
    if (sha256 data).text = expectedSha256 then .ok ⟨key, data, contentType, sha256 data⟩
    else .error ⟨.rejected "STORAGE_CHECKSUM_MISMATCH", none, []⟩

/-- What the download ends with. -/
def Reader.ending (sha256 : List UInt8 → Sha256) (key : ObjectKey) (contentType : Option String)
    (reader : Reader) (close : Except StorageError Unit) (maxBytes : Nat)
    (expectedSha256 : String) : Except Thrown ObjectBytes :=
  match close with
  | .ok _ => reader.primary sha256 key contentType maxBytes expectedSha256
  | .error e => closeFailed e (reader.primary sha256 key contentType maxBytes expectedSha256)

theorem verifiedObjectBytes_eq (data : List UInt8)
    (hchecksum : validateChecksum expectedSha256 = .ok ()) :
    verifiedObjectBytes sha256 key data contentType (some expectedSha256) =
      if (sha256 data).text = expectedSha256 then .ok ⟨key, data, contentType, sha256 data⟩
      else .error (.rejected "STORAGE_CHECKSUM_MISMATCH") := by
  simp only [verifiedObjectBytes, hchecksum, ok_bind]
  by_cases hsame : (sha256 data).text = expectedSha256
  · rw [if_pos hsame, raiseIf_neg (not_not.mpr hsame)]
    rfl
  · rw [if_neg hsame, raiseIf_pos hsame]
    rfl

/-- The `try` block keeps to the limit and does not close. -/
theorem readBody_spec (hlimit : 1 ≤ maxBytes ∧ maxBytes ≤ runtimeMax)
    (hchecksum : validateChecksum expectedSha256 = .ok ())
    (closeMethod : Option (Except StorageError Unit)) :
    ∃ reads, AsksWithin (maxBytes + 1) 0 reads ∧ .close ∉ reads ∧
      readBody sha256 runtimeMax key maxBytes expectedSha256
        ⟨some ⟨some reader, closeMethod⟩, contentType⟩ =
          ⟨reads, reader.primary sha256 key contentType maxBytes expectedSha256⟩ := by
  obtain ⟨hasks, hnone, hresult⟩ :=
    collectChunks_spec reader (Nat.zero_le maxBytes) (Nat.zero_le reader.content.length)
  have hcollect : collectBoundedBytes runtimeMax reader maxBytes =
      collectChunks reader maxBytes 0 0 (reader.content.take 0) := if_pos hlimit
  refine ⟨_, hasks, hnone, ?_⟩
  show (⟨(collectBoundedBytes runtimeMax reader maxBytes).events,
    match (collectBoundedBytes runtimeMax reader maxBytes).result with
    | .error e => .error (providerFailure e)
    | .ok data => (verifiedObjectBytes sha256 key data contentType (some expectedSha256)).mapError
        fun e ↦ ⟨e, none, []⟩⟩ : Traced BodyCall Thrown ObjectBytes) = _
  rw [hcollect, hresult, Reader.primary]
  cases reader.collected maxBytes with
  | error e => rfl
  | ok data =>
    simp only [verifiedObjectBytes_eq sha256 key contentType data hchecksum]
    by_cases hsame : (sha256 data).text = expectedSha256
    · simp only [if_pos hsame, Except.mapError]
    · simp only [if_neg hsame, Except.mapError]

/-- A close that fails leaves the first error if both are exceptions. -/
theorem closeFailed_keeps (e : StorageError) {first : Thrown}
    (hcontext : first.error.isException = false → first.context = none) :
    (∃ notes, closeFailed e (.error first : Except Thrown ObjectBytes) =
      .error { first with notes := notes }) ↔
        e.isException = true ∧ first.error.isException = true := by
  obtain ⟨error, context, notes⟩ := first
  cases he : e.isException with
  | false =>
    -- the error of the close is raised over the first one
    have heq : closeFailed e (.error ⟨error, context, notes⟩ : Except Thrown ObjectBytes) =
        .error ⟨e, some error, []⟩ := by
      rw [closeFailed, if_pos he]
    rw [heq]
    constructor
    · rintro ⟨notes', h⟩
      injection h with h
      injection h with herror hcontext' hnotes
      rw [← hcontext', ← herror] at hcontext
      cases hcontext he
    · rintro ⟨h, -⟩
      cases h
  | true =>
    have hnot : ¬ e.isException = false := by
      rw [he]
      decide
    cases herror : error.isException with
    | false =>
      have heq : closeFailed e (.error ⟨error, context, notes⟩ : Except Thrown ObjectBytes) =
          .error ⟨.unavailable "storage response cleanup failed", some e, []⟩ := by
        rw [closeFailed, if_neg hnot, if_pos herror]
      rw [heq]
      constructor
      · rintro ⟨notes', h⟩
        injection h with h
        injection h with h hcontext' hnotes
        have hfirst : StorageError.unavailable "storage response cleanup failed" = error := h
        rw [← hfirst] at herror
        cases herror
      · rintro ⟨-, h⟩
        cases h
    | true =>
      have hprimary : ¬ error.isException = false := by
        rw [herror]
        decide
      have heq : closeFailed e (.error ⟨error, context, notes⟩ : Except Thrown ObjectBytes) =
          .error ⟨error, context, notes ++ ["storage response cleanup failed"]⟩ := by
        rw [closeFailed, if_neg hnot, if_neg hprimary]
      exact ⟨fun _ ↦ ⟨rfl, rfl⟩, fun _ ↦ ⟨_, heq⟩⟩

/-- What is thrown when nothing is taken for a rejection is the first thing that goes wrong. -/
theorem primary_eq (expectedSha256 : String)
    (hread : ∀ e, reader.fault = some e → reader.content.length ≤ maxBytes → e.isPassed = false) :
    reader.primary sha256 key contentType maxBytes expectedSha256 =
      match reader.firstThrown sha256 maxBytes expectedSha256 with
      | some first => .error first
      | none => .ok ⟨key, reader.content, contentType, sha256 reader.content⟩ := by
  rw [Reader.primary, Reader.collected, Reader.firstThrown]
  by_cases hover : maxBytes < reader.content.length
  · simp only [if_pos hover, providerFailure, StorageError.isPassed, if_true]
  · simp only [if_neg hover]
    cases hfault : reader.fault with
    | none =>
      simp only
      split_ifs <;> rfl
    | some e =>
      have hpassed : ¬ e.isPassed = true := by
        rw [hread e hfault (not_lt.mp hover)]
        decide
      simp only [providerFailure, if_neg hpassed]
      split_ifs <;> rfl

/-- The download of a body that can be read and closed. -/
theorem downloadBytes_eq (reader : Reader) (close : Except StorageError Unit)
    (hlimit : 1 ≤ maxBytes ∧ maxBytes ≤ runtimeMax)
    (hchecksum : validateChecksum expectedSha256 = .ok ()) :
    ∃ reads, AsksWithin (maxBytes + 1) 0 reads ∧ .close ∉ reads ∧
      downloadBytes sha256 runtimeMax key maxBytes expectedSha256
        (.ok ⟨some ⟨some reader, some close⟩, contentType⟩) =
          ⟨reads ++ [.close],
            reader.ending sha256 key contentType close maxBytes expectedSha256⟩ := by
  obtain ⟨reads, hasks, hnone, hbody⟩ :=
    readBody_spec sha256 key contentType hlimit hchecksum (some close)
  refine ⟨reads, hasks, hnone, ?_⟩
  rw [downloadBytes, hchecksum]
  show closing (some close) _ = _
  rw [hbody]
  cases close <;> rfl

theorem firstThrown_over (hover : maxBytes < reader.content.length) :
    reader.firstThrown sha256 maxBytes expectedSha256 =
      some ⟨.rejected "STORAGE_BYTE_LIMIT", none, []⟩ :=
  if_pos hover

theorem firstThrown_fault (hfits : reader.content.length ≤ maxBytes) {e : StorageError}
    (hfault : reader.fault = some e) : reader.firstThrown sha256 maxBytes expectedSha256 =
      if e.isException then some ⟨.unavailable "storage provider request failed", some e, []⟩
      else some ⟨e, none, []⟩ := by
  rw [Reader.firstThrown, if_neg (not_lt.mpr hfits), hfault]

theorem firstThrown_whole (hfits : reader.content.length ≤ maxBytes)
    (hfault : reader.fault = none) : reader.firstThrown sha256 maxBytes expectedSha256 =
      if (sha256 reader.content).text = expectedSha256 then none
      else some ⟨.rejected "STORAGE_CHECKSUM_MISMATCH", none, []⟩ := by
  rw [Reader.firstThrown, if_neg (not_lt.mpr hfits), hfault]

/-- An interrupt that is the first thing to go wrong comes from a read, and from nothing before. -/
theorem firstThrown_interrupt {first : Thrown}
    (h : reader.firstThrown sha256 maxBytes expectedSha256 = some first)
    (hinterrupt : first.error.isException = false) : first.context = none ∧
      reader.content.length ≤ maxBytes ∧ reader.fault = some first.error := by
  by_cases hover : maxBytes < reader.content.length
  · rw [firstThrown_over sha256 hover] at h
    obtain rfl := Option.some.inj h
    cases hinterrupt
  · have hfits := not_lt.mp hover
    cases hfault : reader.fault with
    | none =>
      rw [firstThrown_whole sha256 hfits hfault] at h
      split_ifs at h
      obtain rfl := Option.some.inj h
      cases hinterrupt
    | some e =>
      rw [firstThrown_fault sha256 hfits hfault] at h
      split_ifs at h
      · obtain rfl := Option.some.inj h
        cases hinterrupt
      · obtain rfl := Option.some.inj h
        exact ⟨rfl, hfits, rfl⟩

theorem firstThrown_eq_none : reader.firstThrown sha256 maxBytes expectedSha256 = none ↔
    reader.content.length ≤ maxBytes ∧ reader.fault = none ∧
      (sha256 reader.content).text = expectedSha256 := by
  constructor
  · intro h
    by_cases hover : maxBytes < reader.content.length
    · rw [firstThrown_over sha256 hover] at h
      cases h
    · have hfits := not_lt.mp hover
      cases hfault : reader.fault with
      | none =>
        rw [firstThrown_whole sha256 hfits hfault] at h
        split_ifs at h with hsame
        exact ⟨hfits, rfl, hsame⟩
      | some e =>
        rw [firstThrown_fault sha256 hfits hfault] at h
        split_ifs at h
  · rintro ⟨hfits, hfault, hsame⟩
    rw [firstThrown_whole sha256 hfits hfault, if_pos hsame]

/-- A rejection raised by a read is never turned into the provider's failure. -/
theorem ending_of_isPassed (close : Except StorageError Unit) {e : StorageError} (hfault : reader.fault = some e)
    (hfits : reader.content.length ≤ maxBytes) (hpassed : e.isPassed = true) {first : Thrown}
    (hfirst : reader.firstThrown sha256 maxBytes expectedSha256 = some first) :
    ¬ ∃ notes, reader.ending sha256 key contentType close maxBytes expectedSha256 =
      .error { first with notes := notes } := by
  have hexception : e.isException = true := by
    cases e <;> first | rfl | cases hpassed
  have hprimary : reader.primary sha256 key contentType maxBytes expectedSha256 =
      .error ⟨e, none, []⟩ := by
    rw [Reader.primary, Reader.collected, if_neg (not_lt.mpr hfits), hfault]
    exact congrArg _ (if_pos hpassed)
  rw [firstThrown_fault sha256 hfits hfault, if_pos hexception, Option.some.injEq] at hfirst
  rintro ⟨notes, h⟩
  rw [← hfirst] at h
  cases close with
  | ok u =>
    -- it is passed on
    have hending := hprimary.symm.trans h
    injection hending with hending
    injection hending with _ hcontext
    cases hcontext
  | error c =>
    have hending : closeFailed c (reader.primary sha256 key contentType maxBytes expectedSha256) =
        .error ⟨.unavailable "storage provider request failed", some e, notes⟩ := h
    have hnot : ¬ e.isException = false := by
      rw [hexception]
      decide
    rw [hprimary, closeFailed] at hending
    split_ifs at hending with hc
    · injection hending with hending
      injection hending with herror
      rw [herror] at hc
      cases hc
    · injection hending with hending
      injection hending with _ hcontext
      cases hcontext

theorem closeFailed_throws (e : StorageError) (bytes : ObjectBytes) :
    ∃ thrown, closeFailed e (.ok bytes : Except Thrown ObjectBytes) = .error thrown := by
  rw [closeFailed]
  split_ifs <;> exact ⟨_, rfl⟩

/-- The first thing that goes wrong is what is thrown, exactly when the failures are plain. -/
theorem ending_thrown_iff {first : Thrown}
    (hfirst : reader.firstThrown sha256 maxBytes expectedSha256 = some first) :
    (∃ notes, reader.ending sha256 key contentType close maxBytes expectedSha256 =
      .error { first with notes := notes }) ↔
        PlainFailures sha256 reader close maxBytes expectedSha256 := by
  by_cases hread : ∀ e, reader.fault = some e → reader.content.length ≤ maxBytes →
      e.isPassed = false
  · have hprimary := primary_eq sha256 key contentType expectedSha256 hread
    rw [hfirst] at hprimary
    cases close with
    | ok u =>
      refine ⟨fun _ ↦ ⟨hread, fun _ _ _ _ ↦ rfl, fun e h ↦ nomatch h⟩, fun _ ↦ ⟨first.notes, ?_⟩⟩
      exact hprimary
    | error c =>
      have hkeeps := closeFailed_keeps c fun h ↦ (firstThrown_interrupt sha256 hfirst h).1
      show (∃ notes, closeFailed c (reader.primary sha256 key contentType maxBytes
        expectedSha256) = _) ↔ _
      rw [hprimary, hkeeps]
      constructor
      · -- the close passes nothing of its own and interrupts nothing that was under way
        rintro ⟨hc, hexception⟩
        refine ⟨hread, fun e hfault hfits he ↦ ?_, fun e heq he ↦ ?_⟩
        · rw [firstThrown_fault sha256 hfits hfault, if_neg (by rw [he]; decide)] at hfirst
          obtain rfl := Option.some.inj hfirst
          rw [he] at hexception
          cases hexception
        · injection heq with heq
          rw [heq, he] at hc
          cases hc
      · intro hplain
        constructor
        · by_contra hc
          have hnone :=
            (firstThrown_eq_none sha256).mpr (hplain.close c rfl (Bool.not_eq_true _ ▸ hc))
          rw [hfirst] at hnone
          cases hnone
        · by_contra hinterrupt
          obtain ⟨-, hfits, hfault⟩ :=
            firstThrown_interrupt sha256 hfirst (Bool.not_eq_true _ ▸ hinterrupt)
          cases hplain.interrupted _ hfault hfits (Bool.not_eq_true _ ▸ hinterrupt)
  · push Not at hread
    obtain ⟨e, hfault, hfits, hpassed⟩ := hread
    have hpassed : e.isPassed = true := Bool.not_eq_false _ ▸ hpassed
    refine iff_of_false
      (ending_of_isPassed sha256 key contentType close hfault hfits hpassed hfirst) fun hplain ↦ ?_
    rw [hplain.read e hfault hfits] at hpassed
    cases hpassed

/-- The law of a download holds exactly when the failures are plain. -/
theorem downloadBytes_bounded_iff (hlimit : 1 ≤ maxBytes ∧ maxBytes ≤ runtimeMax)
    (hchecksum : validateChecksum expectedSha256 = .ok ()) :
    BoundedDownload sha256 key contentType reader close maxBytes expectedSha256
        (downloadBytes sha256 runtimeMax key maxBytes expectedSha256
          (.ok ⟨some ⟨some reader, some close⟩, contentType⟩)) ↔
      PlainFailures sha256 reader close maxBytes expectedSha256 := by
  obtain ⟨reads, hasks, hnone, hrun⟩ := downloadBytes_eq sha256 key contentType reader close hlimit
    hchecksum
  rw [hrun]
  -- with a failure the ending must throw it; without one the content or the close decides
  cases hfirst : reader.firstThrown sha256 maxBytes expectedSha256 with
  | some first =>
    rw [← ending_thrown_iff sha256 key contentType hfirst]
    constructor
    · intro hlaw
      exact hlaw.thrown first hfirst
    · intro hthrown
      refine ⟨asksWithin_append_close hasks, ⟨reads, rfl, hnone⟩, fun other hother ↦ ?_,
        fun h ↦ ?_, fun h ↦ ?_⟩
      · rw [hfirst, Option.some.injEq] at hother
        exact hother ▸ hthrown
      · rw [hfirst] at h
        cases h
      · rw [hfirst] at h
        cases h
  | none =>
    obtain ⟨hfits, hfault, hsame⟩ := (firstThrown_eq_none sha256).mp hfirst
    have hread : ∀ e, reader.fault = some e → reader.content.length ≤ maxBytes →
        e.isPassed = false := by
      intro e he
      rw [hfault] at he
      cases he
    have hprimary := primary_eq sha256 key contentType expectedSha256 hread
    rw [hfirst] at hprimary
    refine iff_of_true ⟨asksWithin_append_close hasks, ⟨reads, rfl, hnone⟩, fun other hother ↦ ?_,
      fun _ hclose ↦ ?_, fun _ e hclose ↦ ?_⟩ ⟨hread, fun e he ↦ ?_, fun _ _ _ ↦
        ⟨hfits, hfault, hsame⟩⟩
    · rw [hfirst] at hother
      cases hother
    · rw [hclose]
      exact hprimary
    · rw [hclose]
      show ∃ thrown, closeFailed e (reader.primary sha256 key contentType maxBytes
        expectedSha256) = .error thrown
      rw [hprimary]
      exact closeFailed_throws e ⟨key, reader.content, contentType, sha256 reader.content⟩
    · rw [hfault] at he
      cases he

end Law

/-- The SHA-256 of the three bytes `abc`. -/
def abcDigest : Sha256 :=
  ⟨0xba7816bf8f01cfea414140de5dae2223b00361a396177a9cb410ff61f20015ad#256⟩

/-- Three bytes, two at most for a read. -/
def abcReader : Reader where
  content := [97, 98, 99]
  fault := none
  size _ amount := min amount 2
  size_spec _ amount hamount := ⟨by omega, Nat.min_le_left amount 2⟩

def abcKey : ObjectKey := .promotedInput .issuance ⟨1⟩ ⟨2⟩

/-- A limit of three bytes lets the three bytes pass. -/
theorem abcReader_downloaded : BoundedDownload (fun _ ↦ abcDigest) abcKey none abcReader
    (.ok ()) 3 abcDigest.text
    (downloadBytes (fun _ ↦ abcDigest) 10485760 abcKey 3 abcDigest.text
      (.ok ⟨some ⟨some abcReader, some (.ok ())⟩, none⟩)) :=
  (downloadBytes_bounded_iff _ abcKey none (by decide) (by decide +kernel)).mpr
    ⟨fun _ h ↦ (nomatch h), fun _ h ↦ (nomatch h), fun _ h ↦ (nomatch h)⟩

/-- A body whose file is closed before its first byte. -/
def closedReader : Reader := { abcReader with
  content := []
  fault := some (.value "I/O operation on closed file.") }

/-- Its failure leaves the download as it is, with the provider's text. -/
theorem closedReader_passed : ¬ BoundedDownload (fun _ ↦ abcDigest) abcKey none closedReader
    (.ok ()) 3 abcDigest.text
    (downloadBytes (fun _ ↦ abcDigest) 10485760 abcKey 3 abcDigest.text
      (.ok ⟨some ⟨some closedReader, some (.ok ())⟩, none⟩)) := by
  obtain ⟨reads, -, -, hrun⟩ := downloadBytes_eq (fun _ ↦ abcDigest) abcKey none closedReader
    (.ok ()) (show 1 ≤ 3 ∧ 3 ≤ 10485760 by decide)
    (show validateChecksum abcDigest.text = .ok () by decide +kernel)
  intro hlaw
  rw [hrun] at hlaw
  have hfits : closedReader.content.length ≤ 3 := by decide
  have hfirst : closedReader.firstThrown (fun _ ↦ abcDigest) 3 abcDigest.text = some _ :=
    firstThrown_fault _ hfits rfl
  obtain ⟨notes, hthrown⟩ := hlaw.thrown _ hfirst
  exact ending_of_isPassed _ abcKey none (.ok ()) rfl hfits rfl hfirst ⟨notes, hthrown⟩

end Splitbind
