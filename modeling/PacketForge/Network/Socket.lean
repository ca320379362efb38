import PacketForge.Common.Error
import PacketForge.Network.Posix

set_option autoImplicit false

/-! # Sockets and connections (`network/socket.cpp`, `network/connection.cpp`)

The member functions of `Socket` and `Connection`. A function that changes its object returns the
new state of it; one that takes another object by reference returns that one as well. Move
assignment is given for two different objects: for `x = std::move(x)` the code does nothing.

The objects are plain values here, so nothing prevents a caller from using an object twice. That
two objects never hold the same descriptor is a result about programs (`Objects`), and follows
from what the move operations leave behind in the object that was moved from.
-/

namespace PacketForge.Network

open Interaction Common

/-! ## Socket -/

/-- `class Socket`: the descriptor it owns, or `-1`. -/
structure Socket where
  socket : Int
  deriving DecidableEq, Repr

namespace Socket

/-- `Socket::Socket`. -/
def new : Socket := ⟨-1⟩

def isOpen (self : Socket) : Bool := self.socket ≠ -1

def nativeHandle (self : Socket) : Int := self.socket

/-- `Socket::close`. -/
def close (self : Socket) : SysM Socket :=
  if self.socket ≠ -1 then do
    Posix.close self.socket
    pure ⟨-1⟩
  else pure self

/-- `Socket::~Socket`. -/
def destruct (self : Socket) : SysM Unit := do
  let _ ← self.close
  pure ()

/-- `Socket::Socket(Socket&& other)`: the new object and the state of `other`. -/
def moveConstruct (other : Socket) : Socket × Socket := (⟨other.socket⟩, ⟨-1⟩)

/-- `Socket::operator=(Socket&& other)` for `this != &other`. -/
def moveAssign (self other : Socket) : SysM (Socket × Socket) := do
  let _ ← self.close
  pure (⟨other.socket⟩, ⟨-1⟩)

/-- `Socket::create`. -/
def create (self : Socket) : SysM (Error × Socket) :=
  if self.isOpen then pure (.success, self)
  else do
    let r ← Posix.socket
    if r.value = -1 then pure (⟨.SocketError, r.strerror⟩, ⟨r.value⟩)
    else pure (.success, ⟨r.value⟩)

/-- `Socket::bind`. -/
def bind (self : Socket) (address : String) (port : UInt16) : SysM (Error × Socket) := do
  let (error, self) ← if !self.isOpen then self.create else pure (.success, self)
  if !error.ok then pure (error, self)
  else do
    let reuse ← Posix.setsockopt self.socket
    if reuse.value < 0 then pure (⟨.SocketError, reuse.strerror⟩, self)
    else do
      let parsed ← Posix.inet_pton address
      if parsed ≠ 1 then pure (⟨.InvalidArgument, "Invalid IPv4 address"⟩, self)
      else do
        let r ← Posix.bind self.socket address port
        if r.value < 0 then pure (⟨.SocketError, r.strerror⟩, self)
        else pure (.success, self)

/-- `Socket::listen`. -/
def listen (self : Socket) (backlog : Int) : SysM Error :=
  if !self.isOpen then pure ⟨.SocketError, "Socket is not open"⟩
  else if backlog ≤ 0 then pure ⟨.InvalidArgument, "Invalid listen backlog"⟩
  else do
    let r ← Posix.listen self.socket backlog
    if r.value < 0 then pure ⟨.SocketError, r.strerror⟩
    else pure .success

/-- `Socket::accept`. Only `client` changes. The descriptor of the listening socket is read
before `client` is closed, so this is also what happens when the two are one object. -/
def accept (self client : Socket) : SysM (Error × Socket) :=
  if !self.isOpen then pure (⟨.SocketError, "Socket is not open"⟩, client)
  else do
    let r ← Posix.accept self.socket
    if r.value < 0 then pure (⟨.SocketError, r.strerror⟩, client)
    else do
      let _ ← client.close
      pure (.success, ⟨r.value⟩)

end Socket

/-! ## Connection -/

/-- `class Connection`. -/
structure Connection where
  socket : Socket
  connected : Bool
  deriving DecidableEq, Repr

namespace Connection

/-- `Connection::Connection`. -/
def new : Connection := ⟨.new, false⟩

def isConnected (self : Connection) : Bool := self.connected

/-- `Connection::open`. -/
def «open» (self : Connection) : SysM (Error × Connection) := do
  let (error, socket) ← self.socket.create
  pure (error, { self with socket := socket })

/-- `Connection::connect`. -/
def connect (self : Connection) (address : String) (port : UInt16) :
    SysM (Error × Connection) := do
  let (error, socket) ←
    if !self.socket.isOpen then self.socket.create else pure (.success, self.socket)
  let self := { self with socket := socket }
  if !error.ok then pure (error, self)
  else do
    let parsed ← Posix.inet_pton address
    if parsed ≠ 1 then pure (⟨.InvalidArgument, "Invalid IPv4 address"⟩, self)
    else do
      let r ← Posix.connect self.socket.nativeHandle address port
      if r.value < 0 then pure (⟨.ConnectionFailed, r.strerror⟩, self)
      else pure (.success, { self with connected := true })

/-- `Connection::accept`. -/
def accept (self : Connection) (listeningSocket : Socket) : SysM (Error × Connection) :=
  if !listeningSocket.isOpen then
    pure (⟨.SocketError, "Listening socket is not open"⟩, self)
  else if self.connected then
    pure (⟨.ConnectionFailed, "Connection is already established"⟩, self)
  else do
    let (error, socket) ← listeningSocket.accept self.socket
    if !error.ok then pure (error, { self with socket := socket })
    else pure (.success, ⟨socket, true⟩)

/-- `Connection::disconnect`. -/
def disconnect (self : Connection) : SysM Connection := do
  let socket ← if self.socket.isOpen then self.socket.close else pure self.socket
  pure ⟨socket, false⟩

/-- `Connection::~Connection`: the body, then the destructor of the socket. -/
def destruct (self : Connection) : SysM Unit := do
  let self ← self.disconnect
  self.socket.destruct

/-- `Connection::Connection(Connection&& other)`. -/
def moveConstruct (other : Connection) : Connection × Connection :=
  let (socket, otherSocket) := other.socket.moveConstruct
  (⟨socket, other.connected⟩, ⟨otherSocket, false⟩)

/-- `Connection::operator=(Connection&& other)` for `this != &other`. -/
def moveAssign (self other : Connection) : SysM (Connection × Connection) := do
  let self ← self.disconnect
  let (socket, otherSocket) ← self.socket.moveAssign other.socket
  pure (⟨socket, other.connected⟩, ⟨otherSocket, false⟩)

end Connection

end PacketForge.Network
