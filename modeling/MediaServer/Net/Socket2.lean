/-
`net/socket2.rs`: the plain socket.

Every call is one system call.  What the operating system has for a `recv_from` and what
it answers to a `send_to` are parameters.
-/
import MediaServer.Net.Socket2IoUring

namespace MediaServer.Plain

open Uring (IoError Message)

/-- The size of the receive buffer. -/
def recvBufSize : Nat := 1500

structure UdpSocket2 where
  buf : Bytes

namespace UdpSocket2

def new : UdpSocket2 := { buf := List.replicate recvBufSize 0 }

/-- `recv_from`, where the next datagram is `next`: as much of it as there is room for. -/
def recvFrom (next : Except IoError Message) (sock : UdpSocket2) :
    Except IoError Message × UdpSocket2 :=
  match next with
  | .error e => (.error e, sock)
  | .ok (payload, remote) =>
      let size := min payload.length recvBufSize
      let sock : UdpSocket2 := { buf := payload.take size ++ sock.buf.drop size }
      (.ok (sock.buf.take size, remote), sock)

/-- What one call after another returns, while datagrams arrive. -/
def recvAll : List Message → UdpSocket2 → List (Except IoError Message)
  | [], _ => []
  | d :: rest, sock =>
      let (received, sock) := sock.recvFrom (.ok d)
      received :: recvAll rest sock

end UdpSocket2

end MediaServer.Plain
