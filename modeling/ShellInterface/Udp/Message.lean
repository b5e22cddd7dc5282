import ShellInterface.Socket

namespace ShellInterface.Udp

-- Asks for a test datagram of a given length, on sockets already seen from the sender's end.
structure TestRequest where
  sockets : SocketPair
  length : UInt16
deriving DecidableEq, Repr

instance : Storable TestRequest :=
  ⟨.record [layout SocketPair, layout UInt16]⟩

end ShellInterface.Udp
