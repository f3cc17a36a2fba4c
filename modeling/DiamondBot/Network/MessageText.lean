import DiamondBot.Network.CallStages

/-!
# The text of messages

A message is written as an object with its metadata and its payload, the fields
in their order. The text of a field is written by the writer of its type.
-/

set_option autoImplicit false

namespace DiamondBot.Network
open Library ByteCache

variable {T : Type}

def quoted (s : String) : String := String.ofList (Json.quote s.toList)

def optionText {A : Type} (text : A → String) : Option A → String
  | none => "null"
  | some a => text a

def MessagePriority.name : MessagePriority → String
  | .low => "Low"
  | .normal => "Normal"
  | .high => "High"
  | .critical => "Critical"

def metadataFields (m : MessageMetadata) : String :=
  "\"id\":"++quoted m.id++",\"queue\":"++quoted m.queue++",\"publisher\":"++quoted m.publisher++
    ",\"timestamp\":"++toString m.timestamp.toNat++
    ",\"retry_count\":"++toString m.retryCount.toNat++
    ",\"priority\":"++quoted m.priority.name++
    ",\"correlation_id\":"++optionText quoted m.correlationId++
    ",\"reply_to\":"++optionText quoted m.replyTo++
    ",\"expiration\":"++optionText (fun n => toString n.toNat) m.expiration

def objectText (fields : String) : String := "\x7b"++(fields++"\x7d")

def messageText (payload : T → String) (m : Message T) : String :=
  objectText ("\"metadata\":"++objectText (metadataFields m.metadata)++
    ",\"payload\":"++payload m.payload)

theorem objectText_ne_quote (fields : String) (s : List Char) :
    objectText fields ≠ String.ofList (Json.quote s) := by
  intro h
  have hhead := congrArg (fun t : String => t.toList.head?) h
  have hopen : "\x7b".toList = [Char.ofNat 123] := by decide
  simp only [objectText,String.toList_append,String.toList_ofList,Json.quote,hopen,
    List.singleton_append,List.head?_cons,Option.some_inj] at hhead
  exact absurd hhead (by decide)

def messagesJson [DecidableEq T] (payload : T → String) (messages : List (Message T))
    (h : ∀ m ∈ messages, ∀ m' ∈ messages, messageText payload m = messageText payload m' → m = m') :
    MessageJson T where
  toJson := Json.ofList messages (messageText payload) h
  notString := by
    intro s m hread
    simp only [Json.ofList] at hread
    split at hread
    · rename_i w hfind
      have hw := List.find?_some hfind
      exact objectText_ne_quote _ s (of_decide_eq_true hw)
    · cases hread

/-! ## Messages without payload -/

def unitText (m : Message Unit) : String := messageText (fun _ => "null") m

def unitQueue (messages : List (Message Unit))
    (h : ∀ m ∈ messages, ∀ m' ∈ messages, unitText m = unitText m' → m = m') :
    RedisMessageQueue Unit where
  redis := ⟨⟨⟨10^18,10^18⟩,3600⟩⟩
  json := messagesJson (fun _ => "null") messages h
  nodeId := "node"

/-! ## A job -/

def jobMessage : Message Unit := ⟨⟨"a","jobs","node",0,0,.normal,none,none,none⟩,()⟩

def jobQueue : RedisMessageQueue Unit := unitQueue [jobMessage] (by simp)

def jobRequest : Request Unit := .send "node" "a" "jobs" () .normal

theorem job_call : ∃ data, Bincode.string.encode (unitText jobMessage) = .ok data ∧
    (jobRequest.call jobQueue).settle (⟨0,0⟩ : Clock) =
      storing jobMessage data 3600 100 fun _ => .done (.ok (.id "a")) := by
  obtain ⟨data,hdata⟩ : ∃ data, Bincode.string.encode (unitText jobMessage) = .ok data :=
    ⟨_,Bincode.string_encode (by decide +kernel)⟩
  exact ⟨data,hdata,send_settle "node" "a" "jobs" () .normal rfl hdata (by decide)⟩

theorem job_legible {data : List UInt8}
    (hdata : Bincode.string.encode (unitText jobMessage) = .ok data) :
    Legible jobQueue data ⟨0,0⟩ jobMessage := by
  have hentry := CacheEntry.deserialize_serialize
    (p := jobQueue.redis.redisCache.platform) (e := ⟨unitText jobMessage,0⟩) hdata
  refine ⟨_,hentry,?_,jobQueue.json.roundTrip jobMessage _ rfl⟩
  show 0 < 10^18
  omega

end DiamondBot.Network
