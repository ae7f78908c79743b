import Mathlib.Data.Nat.Digits.Defs
import ConnectDisks.Client.Client
import ConnectDisks.Lib.Framing
import ConnectDisks.Server.Connection

/-!
# Bytes on the wire

A message travels as the bytes of the struct: the type, then the sixteen bytes of data.
The struct has no padding, because every member of it is a byte. Each side writes and
reads `sizeof(Message)` bytes at a time.

The one field wider than a byte is the queue position, which both sides copy as the
machine they run on keeps it, and bring into order with `boost::endian`. `Host` is what
the two conversions and `memcpy` do on such a machine. On every one of them
`notifyQueuePosition` builds the bytes of `Message.inQueue`, and `handleRead` reads what
`Client.queuePosition` reads, so the two ends need not be alike.
-/

namespace ConnectDisks.Net

open ConnectDisks.Game Lib

namespace MessageType

/-- The underlying value of an enumerator. -/
def toByte : MessageType → UInt8
  | .error => 0
  | .connected => 1
  | .ping => 2
  | .pong => 3
  | .inQueue => 4
  | .gameStart => 5
  | .gameEnd => 6
  | .ready => 7
  | .takeTurn => 8
  | .turnResult => 9
  | .update => 10
  | .other value => value

def ofByte (byte : UInt8) : MessageType :=
  match byte.toNat with
  | 0 => .error
  | 1 => .connected
  | 2 => .ping
  | 3 => .pong
  | 4 => .inQueue
  | 5 => .gameStart
  | 6 => .gameEnd
  | 7 => .ready
  | 8 => .takeTurn
  | 9 => .turnResult
  | 10 => .update
  | _ => .other byte

/-- One of the enumerators, which is all a sender uses. -/
def IsNamed (type : MessageType) : Prop := ∀ value, type ≠ .other value

theorem ofByte_toByte {type : MessageType} (h : type.IsNamed) : ofByte type.toByte = type := by
  cases type with
  | other value => exact absurd rfl (h value)
  | _ => rfl

end MessageType

/-! ## Messages as bytes -/

def sizeofMessage : ℕ := 17

namespace Message

def bytes (m : Message) : List UInt8 := m.type.toByte :: m.data.toList

/-- The message whose bytes these are, if they are as many as a message has. -/
def ofBytes : List UInt8 → Option Message
  | [] => none
  | type :: data =>
      if h : data.length = 16 then
        some { type := .ofByte type, data := ⟨data.toArray, h⟩ }
      else
        none

@[simp] theorem length_bytes (m : Message) : m.bytes.length = sizeofMessage := by
  simp [bytes, sizeofMessage]

theorem ofBytes_bytes {m : Message} (h : m.type.IsNamed) : ofBytes m.bytes = some m := by
  obtain ⟨type, data, hsize⟩ := m
  simp only [ofBytes, bytes, Vector.length_toList, dif_pos, MessageType.ofByte_toByte h]
  rfl

/-- `memcpy(&message->data[0], …, sizeof(uint64_t))`. -/
def copyIn (m : Message) (bytes : Vector UInt8 8) : Message :=
  (List.finRange 8).foldl (fun m (i : Fin 8) => m.set (i.castAdd 8) (bytes.get i)) m

/-- `memcpy(…, &message->data[0], sizeof(uint64_t))`. -/
def copyOut (m : Message) : Vector UInt8 8 := Vector.ofFn fun i => m.get (i.castAdd 8)

end Message

def wire (ms : List Message) : List UInt8 := ms.flatMap Message.bytes

/-- What is read of a stream, `sizeof(Message)` bytes at a time. -/
def readWire (stream : List UInt8) : List Message := records sizeofMessage Message.ofBytes stream

theorem readWire_wire {ms : List Message} (h : ∀ m ∈ ms, m.type.IsNamed) :
    readWire (wire ms) = ms :=
  records_flatMap (by decide) (fun m _ => m.length_bytes) fun m hm => Message.ofBytes_bytes (h m hm)

/-! ## Numbers as bytes -/

/-- The bytes of a 64-bit number, most significant first. -/
def bigEndian (n : UInt64) : Vector UInt8 8 := Vector.ofFn fun i => Message.bigEndianByte n i

def ofBigEndian (bytes : Vector UInt8 8) : UInt64 :=
  UInt64.ofNat (bytes.toList.foldl (fun n byte => n * 256 + byte.toNat) 0)

theorem bigEndian_get (n : UInt64) (i : Fin 8) :
    (bigEndian n).get i = Message.bigEndianByte n i :=
  Vector.getElem_ofFn i.isLt

theorem copyOut_inQueue (position : UInt64) :
    (Message.inQueue position).copyOut = bigEndian position :=
  congrArg Vector.ofFn (funext (Message.inQueue_get position))

theorem queuePosition_eq (m : Message) : Client.queuePosition m = ofBigEndian m.copyOut := rfl

theorem ofBigEndian_bigEndian (n : UInt64) : ofBigEndian (bigEndian n) = n := by
  rw [← copyOut_inQueue, ← queuePosition_eq, Client.queuePosition_inQueue]

theorem digit_lt (bytes : Vector UInt8 8) :
    ∀ digit ∈ (bytes.toList.map UInt8.toNat).reverse, digit < 256 := by
  intro digit hin
  obtain ⟨byte, _, rfl⟩ := List.mem_map.mp (List.mem_reverse.mp hin)
  exact byte.toNat_lt

/-- The bytes are the digits of the number to the base 256. -/
theorem ofBigEndian_toNat (bytes : Vector UInt8 8) :
    (ofBigEndian bytes).toNat = Nat.ofDigits 256 (bytes.toList.map UInt8.toNat).reverse := by
  have hfold : bytes.toList.foldl (fun n byte => n * 256 + byte.toNat) 0 =
      Nat.ofDigits 256 (bytes.toList.map UInt8.toNat).reverse := by
    rw [Nat.ofDigits_eq_foldr, List.foldr_reverse, List.foldl_map]
    congr 1
    funext n byte
    simp
    omega
  have hlt : Nat.ofDigits 256 (bytes.toList.map UInt8.toNat).reverse < 256 ^ 8 := by
    refine Nat.lt_of_lt_of_eq (Nat.ofDigits_lt_base_pow_length (by decide) ?_) (by simp)
    exact digit_lt bytes
  rw [ofBigEndian, hfold, UInt64.toNat_ofNat']
  exact Nat.mod_eq_of_lt hlt

theorem ofBigEndian_inj {a b : Vector UInt8 8} (h : ofBigEndian a = ofBigEndian b) : a = b := by
  have h := congrArg UInt64.toNat h
  rw [ofBigEndian_toNat, ofBigEndian_toNat] at h
  have h := Nat.ofDigits_inj_of_len_eq (by decide) (by simp) (digit_lt a) (digit_lt b) h
  have h := List.map_injective_iff.mpr (fun x y => UInt8.toNat_inj.mp) (List.reverse_inj.mp h)
  exact Vector.toList_inj.mp h

theorem bigEndian_ofBigEndian (bytes : Vector UInt8 8) : bigEndian (ofBigEndian bytes) = bytes :=
  ofBigEndian_inj (ofBigEndian_bigEndian _)

/-- A machine, as far as it shows in the bytes of a `uint64_t`: how it keeps one in
memory, and what `boost::endian::native_to_big` and `big_to_native` make of one on it.
The former answers the number this machine keeps as the big-endian bytes of its
argument, the latter the number of which what it keeps are the big-endian bytes. -/
structure Host where
  store : UInt64 → Vector UInt8 8
  load : Vector UInt8 8 → UInt64
  nativeToBig : UInt64 → UInt64
  bigToNative : UInt64 → UInt64
  store_load : ∀ bytes, store (load bytes) = bytes
  store_nativeToBig : ∀ n, store (nativeToBig n) = bigEndian n
  bigEndian_bigToNative : ∀ n, bigEndian (bigToNative n) = store n

namespace Host

/-- The message `notifyQueuePosition` builds on this machine. -/
def inQueue (host : Host) (position : UInt64) : Message :=
  (Message.blank .inQueue).copyIn (host.store (host.nativeToBig position))

/-- The position `handleRead` reads from a message on this machine. -/
def queuePosition (host : Host) (m : Message) : UInt64 :=
  host.bigToNative (host.load m.copyOut)

theorem inQueue_eq (host : Host) (position : UInt64) :
    host.inQueue position = .inQueue position := by
  rw [inQueue, host.store_nativeToBig, Message.copyIn, Message.inQueue]
  simp only [bigEndian_get]

theorem queuePosition_eq (host : Host) (m : Message) :
    host.queuePosition m = Client.queuePosition m := by
  have hbytes : bigEndian (host.queuePosition m) = m.copyOut := by
    rw [queuePosition, host.bigEndian_bigToNative, host.store_load]
  rw [Net.queuePosition_eq, ← hbytes, ofBigEndian_bigEndian]

/-- A machine that keeps the most significant byte first. -/
def big : Host where
  store := bigEndian
  load := ofBigEndian
  nativeToBig n := n
  bigToNative n := n
  store_load := bigEndian_ofBigEndian
  store_nativeToBig _ := rfl
  bigEndian_bigToNative _ := rfl

/-- A machine that keeps the least significant byte first. -/
def little : Host where
  store n := (bigEndian n).reverse
  load bytes := ofBigEndian bytes.reverse
  nativeToBig n := ofBigEndian (bigEndian n).reverse
  bigToNative n := ofBigEndian (bigEndian n).reverse
  store_load bytes := by rw [bigEndian_ofBigEndian, Vector.reverse_reverse]
  store_nativeToBig n := by rw [bigEndian_ofBigEndian, Vector.reverse_reverse]
  bigEndian_bigToNative n := bigEndian_ofBigEndian _

end Host

end ConnectDisks.Net
