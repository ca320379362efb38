import PacketForge.Protocol.PacketIo

set_option autoImplicit false

/-! # The client (`client/client.cpp`)

A `Client` owns a transport and a `PacketIO` object, which holds a reference to a transport. The
reference is a location; `send` and `receive` are given the transport that stands there.

The move constructor binds the reference of the new object to its own transport, which is why a
client needs to know where it stands. The move assignment moves the transport only: the reference
of each of the two objects stays where it is. That every client refers to its own transport is a
result about programs (`Objects.LinkInv`), not a part of the type.
-/

namespace PacketForge

open Interaction Common Network Protocol

/-- Where an object stands in memory. -/
abbrev Loc := Nat

/-- `class Client`. `packetIo` is the object whose transport `packetIO_` refers to. -/
structure Client where
  transport : Transport
  packetIo : Loc
  deriving DecidableEq, Repr

namespace Client

/-- `Client::Client`, at the location `this`. -/
def new (this : Loc) : Client := ⟨.new, this⟩

/-- `Client::~Client`. -/
def destruct (self : Client) : SysM Unit := self.transport.destruct

/-- `Client::Client(Client&& other)`, at the location `this`. -/
def moveConstruct (this : Loc) (other : Client) : Client × Client :=
  let (transport, otherTransport) := other.transport.moveConstruct
  (⟨transport, this⟩, { other with transport := otherTransport })

/-- `Client::operator=(Client&& other)` for `this != &other`. -/
def moveAssign (self other : Client) : SysM (Client × Client) := do
  let (transport, otherTransport) ← self.transport.moveAssign other.transport
  pure ({ self with transport := transport }, { other with transport := otherTransport })

/-- `Client::connect`. -/
def connect (self : Client) (address : String) (port : UInt16) : SysM (Error × Client) := do
  let (error, connection) ← self.transport.connection.connect address port
  pure (error, { self with transport := ⟨connection⟩ })

/-- `Client::disconnect`. -/
def disconnect (self : Client) : SysM Client := do
  let connection ← self.transport.connection.disconnect
  pure { self with transport := ⟨connection⟩ }

def isConnected (self : Client) : Bool := self.transport.isConnected

/-- `Client::send`, with the transport that `packetIO_` refers to. -/
def send (host : Platform) (self : Client) (referenced : Transport) (packet : Packet) :
    SysM Error :=
  if !self.isConnected then pure ⟨.ConnectionFailed, "Connection not established"⟩
  else PacketIo.send host referenced packet

/-- `Client::receive`, with the transport that `packetIO_` refers to. The result is the error,
the caller's packet and that transport. -/
def receive (host : Platform) (self : Client) (referenced : Transport) (packet : Packet) :
    SysM (Except Abort (Error × Packet × Transport)) :=
  if !self.isConnected then
    pure (.ok (⟨.ConnectionFailed, "Connection not established"⟩, packet, referenced))
  else do
    let r ← PacketIo.receive host referenced packet none
    pure (r.map fun r => (r.error, r.packet, r.transport))

end Client

end PacketForge
