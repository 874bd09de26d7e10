import CloudEdgePush.Lib.Bytes
import CloudEdgePush.Lib.LittleEndian
import CloudEdgePush.Client.BytesBuffer

/-!
# Messages and constants of the edge client

`app_common.h`, `message_def.h` and `tcp_message.h`, as far as the client's functions use
them.  The `uint32_t` fields of a message are `UInt32`; the client copies them to and from
the wire as the memory of a little-endian host.
-/

namespace CloudEdgePush.Client

open CloudEdgePush.Lib.Bytes CloudEdgePush.Lib.LittleEndian

def kIntLen : Nat := 4
def kTotalHeadLen : UInt32 := 16
def kMaxMessageSize : UInt32 := 1024 * 1024 * 64

def kProtoclHead : Bytes := [0x01, 0x01, 0x01, 0x01]

def kLoginReq : UInt32 := 2001
def kLoginRsp : UInt32 := 2002
def kHeartReq : UInt32 := 2011
def kHeartRsp : UInt32 := 2012
def kUpdateFileNtf : UInt32 := 2023
def kSendFileInfosNtf : UInt32 := 2033

structure ClientConfig where
  isReconnect : Bool
  reconnectInterval : Nat
  heartbeatInterval : Nat
  httpServer : String
  clientType : String
deriving DecidableEq, Repr

structure TcpMessage where
  protoclHead : Bytes := kProtoclHead
  fullMsgLen : UInt32 := 0
  msgType : UInt32 := 0
  bodyLen : UInt32 := 0
  body : Bytes := []
  binaryData : Bytes := []
deriving DecidableEq, Repr

/-! ## Words in memory -/

def wordBytes (x : UInt32) : Bytes := toLE 4 x.toNat

def wordOfBytes (bs : Bytes) : UInt32 := UInt32.ofNat (ofLE bs)

/-- A `uint32_t` after `src` was copied over the start of its memory. -/
def storeWord (old : UInt32) (src : Bytes) : UInt32 :=
  wordOfBytes (overwrite (wordBytes old) 0 src)

@[simp] theorem length_wordBytes (x : UInt32) : (wordBytes x).length = 4 := length_toLE _ _

@[simp] theorem wordOfBytes_wordBytes (x : UInt32) : wordOfBytes (wordBytes x) = x := by
  rw [wordOfBytes, wordBytes, ofLE_toLE_of_lt x.toNat_lt, UInt32.ofNat_toNat]

theorem storeWord_of_length {src : Bytes} (old : UInt32) (h : src.length = 4) :
    storeWord old src = wordOfBytes src := by
  rw [storeWord, overwrite_all (by rw [h, length_wordBytes])]

end CloudEdgePush.Client
