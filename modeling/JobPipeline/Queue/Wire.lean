import JobPipeline.Core.JsonText
import JobPipeline.Queue.Messages

/-!
# Messages on the wire

What `KafkaJobProducer` hands to `KafkaProducer.send`, and what the deserializers of the worker's
consumer make of it. Between the two there are only bytes: the value is `json.dumps` with its default
separators, in UTF-8, and the key is the text of the job's UUID.
-/

set_option autoImplicit false

namespace JobPipeline

/-- `topic_for_priority`. -/
def topicForPriority (settings : Settings) (priority : Nat) : String :=
  if 8 ≤ priority then settings.kafkaSubmittedHighTopic
  else if priority = 0 then settings.kafkaSubmittedLowTopic
  else settings.kafkaSubmittedDefaultTopic

/-- The arguments of `send`, serialized. -/
structure ProducerRecord where
  topic : String
  key : ByteArray
  value : ByteArray

/-- `value_serializer`. -/
def serializeValue (value : Json) : ByteArray := encodeUtf8 (value.dumps .default)

/-- `key_serializer`, of a text. -/
def serializeKey (key : String) : ByteArray := encodeUtf8 key.toList

/-- `value_deserializer`; the error is that of `decode` or of `json.loads`. -/
def deserializeValue (floatRepr : List Char → List Char) (bytes : ByteArray) : Except String Json :=
  match decodeUtf8 bytes with
  | none => .error "'utf-8' codec can't decode bytes"
  | some text => loads floatRepr text

/-- `key_deserializer`: an empty key is `None`. -/
def deserializeKey (bytes : ByteArray) : Except String (Option String) :=
  if bytes.size = 0 then .ok none
  else match decodeUtf8 bytes with
    | none => .error "'utf-8' codec can't decode bytes"
    | some text => .ok (some (String.ofList text))

namespace KafkaJobProducer

/-- What `publish_job` sends. -/
def jobRecord (settings : Settings) (isoformat : Int → String) (message : JobMessage) :
    ProducerRecord where
  topic := topicForPriority settings message.priority
  key := serializeKey message.jobId.str
  value := serializeValue (message.value isoformat)

end KafkaJobProducer

/-- The payload `publish_dead_letter` sends. -/
def DeadLetterMessage.value (message : DeadLetterMessage) : Json :=
  .obj [("job_id", .str message.jobId.str), ("handler", .str message.handler),
    ("attempt", .num (toString message.attempt))]

/-- What `publish_dead_letter` sends. -/
def KafkaJobProducer.deadLetterRecord (settings : Settings) (message : DeadLetterMessage) :
    ProducerRecord where
  topic := settings.kafkaDeadLetterTopic
  key := serializeKey message.jobId.str
  value := serializeValue message.value

/-! ## The round trip -/

variable {floatRepr : List Char → List Char}

/-- **A printed value comes back from its bytes.** -/
theorem deserializeValue_serializeValue {value : Json} (h : value.Printed floatRepr) :
    deserializeValue floatRepr (serializeValue value) = .ok value := by
  rw [deserializeValue, serializeValue, decodeUtf8_encodeUtf8]
  exact loads_dumps h .default

theorem deserializeKey_serializeKey {key : String} (h : key ≠ "") :
    deserializeKey (serializeKey key) = .ok (some key) := by
  have hne : key.toList ≠ [] := by
    intro hnil
    exact h (String.toList_injective hnil)
  rw [deserializeKey, serializeKey, if_neg (Nat.pos_iff_ne_zero.mp (size_encodeUtf8_pos hne)),
    decodeUtf8_encodeUtf8]
  simp only [String.ofList_toList]

theorem UUID.str_ne_empty (u : UUID) : u.str ≠ "" := by
  intro h
  have hcanonical := u.canonical
  rw [h] at hcanonical
  cases hcanonical

theorem JobMessage.printed_value (isoformat : Int → String) (message : JobMessage) :
    (message.value isoformat).Printed floatRepr :=
  ⟨by simp, trivial, trivial, printedNumber_repr floatRepr message.attempt, trivial, trivial⟩

theorem DeadLetterMessage.printed_value (message : DeadLetterMessage) :
    message.value.Printed floatRepr :=
  ⟨by simp, trivial, trivial, printedNumber_repr floatRepr message.attempt, trivial⟩

/-- **The worker reads what the producer sends**: the key and the value of every message come back
    as they were, whatever characters the handler's name has, and the value names the job. -/
theorem jobRecord_read (settings : Settings) (isoformat : Int → String)
    (floatRepr : List Char → List Char) (message : JobMessage) :
    deserializeKey (KafkaJobProducer.jobRecord settings isoformat message).key =
        .ok (some message.jobId.str) ∧
      deserializeValue floatRepr (KafkaJobProducer.jobRecord settings isoformat message).value =
        .ok (message.value isoformat) ∧
      (deserializeValue floatRepr (KafkaJobProducer.jobRecord settings isoformat message).value).map
        messageJobId = .ok (.ok message.jobId) := by
  have hvalue : deserializeValue floatRepr
      (KafkaJobProducer.jobRecord settings isoformat message).value =
        .ok (message.value isoformat) := by
    simp only [KafkaJobProducer.jobRecord,
      deserializeValue_serializeValue (message.printed_value isoformat)]
  refine ⟨deserializeKey_serializeKey message.jobId.str_ne_empty, hvalue, ?_⟩
  rw [hvalue]
  exact congrArg _ (messageJobId_value isoformat message)

/-- A dead letter comes back as it was, too, and names its job as a message does. -/
theorem deadLetterRecord_read (settings : Settings) (floatRepr : List Char → List Char)
    (message : DeadLetterMessage) :
    deserializeKey (KafkaJobProducer.deadLetterRecord settings message).key =
        .ok (some message.jobId.str) ∧
      deserializeValue floatRepr (KafkaJobProducer.deadLetterRecord settings message).value =
        .ok message.value ∧
      messageJobId message.value = .ok message.jobId := by
  refine ⟨deserializeKey_serializeKey message.jobId.str_ne_empty, ?_, message.jobId.ofHex_str⟩
  simp only [KafkaJobProducer.deadLetterRecord,
    deserializeValue_serializeValue message.printed_value]

end JobPipeline
