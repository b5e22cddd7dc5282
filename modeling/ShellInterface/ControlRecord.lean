import ShellInterface.Chunk
import ShellInterface.Socket

namespace ShellInterface

structure ControlRecord where
  sock : Socket
  -- The bytes to transmit. Zero asks for a new connection instead.
  length : UInt16
deriving DecidableEq, Repr

instance : Storable ControlRecord :=
  ⟨.record [layout Socket, layout UInt16]⟩

namespace ControlRecord

def ofChunk? (c : Chunk) : Option ControlRecord :=
  if c.length < Chunk.width || !c.isContiguous then
    none
  else
    some {
      sock := {
        addr := .ofNat (BigEndian.decode (c.data.take 4))
        port := .ofNat (BigEndian.decode ((c.data.drop 4).take 2)) }
      length := .ofNat (BigEndian.decode (c.data.drop 6)) }

def toChunk (r : ControlRecord) (last : Bool) : Chunk where
  data :=
    BigEndian.encode 4 r.sock.addr.toNat ++
    BigEndian.encode 2 r.sock.port.toNat ++
    BigEndian.encode 2 r.length.toNat
  keep := .allOnes 8
  last := last
  data_length := by simp

theorem ofChunk?_eq_some {r : ControlRecord} {c : Chunk} {last : Bool}
    (length : c.length = Chunk.width) (data : c.data = (r.toChunk last).data) :
    ofChunk? c = some r := by
  have ⟨contiguous, _⟩ := Chunk.of_length_eq_width length
  have haddr : c.data.take 4 = BigEndian.encode 4 r.sock.addr.toNat := by
    simp [data, toChunk]
  have hport : (c.data.drop 4).take 2 = BigEndian.encode 2 r.sock.port.toNat := by
    simp [data, toChunk]
  have hlength : c.data.drop 6 = BigEndian.encode 2 r.length.toNat := by
    simp [data, toChunk, List.drop_append]
  simp [ofChunk?, length, contiguous, haddr, hport, hlength, BigEndian.decode_encode_four,
    BigEndian.decode_encode_two]

end ControlRecord

end ShellInterface
