import ShellInterface.BigEndian
import ShellInterface.Layout

namespace ShellInterface

abbrev Port := UInt16

structure Socket where
  addr : UInt32
  port : Port
deriving DecidableEq, Repr

instance : Storable Socket :=
  ⟨.record [layout UInt32, layout Port]⟩

namespace Socket

def text (s : Socket) : String :=
  let octets := (BigEndian.encode 4 s.addr.toNat).map fun b => toString b.toNat
  ".".intercalate octets ++ ":" ++ toString s.port.toNat

def unspecified : Socket :=
  ⟨0, 0⟩

end Socket

structure SocketPair where
  src : Socket
  dst : Socket
deriving DecidableEq, Repr

instance : Storable SocketPair :=
  ⟨.record [layout Socket, layout Socket]⟩

namespace SocketPair

def swapped (p : SocketPair) : SocketPair :=
  ⟨p.dst, p.src⟩

def text (p : SocketPair) : String :=
  p.src.text ++ " -> " ++ p.dst.text

end SocketPair

end ShellInterface
