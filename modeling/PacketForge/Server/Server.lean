import PacketForge.Network.Transport

set_option autoImplicit false

/-! # The server object (`server/server.cpp`)

`Server` owns a listening socket and hands out connections. `start` makes a sequence of system
calls, and closes its socket again if one of them fails; `accept` gives the new descriptor to the
connection of the caller and keeps nothing of it.
-/

namespace PacketForge

open Interaction Common Network

/-- `SOMAXCONN`. -/
def SOMAXCONN : Int := 4096

/-- `class Server`. -/
structure Server where
  socket : Socket
  running : Bool
  port : UInt16
  deriving DecidableEq, Repr

namespace Server

/-- `Server::Server`. -/
def new : Server := ⟨.new, false, 0⟩

def isRunning (self : Server) : Bool := self.running

/-- What every failure of `Server::start` behind `Socket::create` does. -/
def startFailed (socket : Socket) (running : Bool) (error : Error) : SysM (Error × Server) := do
  let socket ← socket.close
  pure (error, ⟨socket, running, 0⟩)

/-- `Server::start`. -/
def start (self : Server) (address : String) (port : UInt16) : SysM (Error × Server) :=
  if self.running then pure (⟨.SocketError, "Server is already running"⟩, self)
  else do
    let (error, socket) ← self.socket.create
    if !error.ok then pure (error, ⟨socket, self.running, 0⟩)
    else do
      let (error, socket) ← socket.bind address port
      if !error.ok then startFailed socket self.running error
      else do
        let error ← socket.listen SOMAXCONN
        if !error.ok then startFailed socket self.running error
        else do
          let (r, sin_port) ← Posix.getsockname socket.nativeHandle
          if r.value < 0 then startFailed socket self.running ⟨.SocketError, r.strerror⟩
          else pure (.success, ⟨socket, true, sin_port⟩)

/-- `Server::stop`. -/
def stop (self : Server) : SysM Server := do
  let socket ← if self.socket.isOpen then self.socket.close else pure self.socket
  pure ⟨socket, false, 0⟩

/-- `Server::~Server`: the body, then the destructor of the socket. -/
def destruct (self : Server) : SysM Unit := do
  let self ← self.stop
  self.socket.destruct

/-- `Server::Server(Server&& other)`. -/
def moveConstruct (other : Server) : Server × Server :=
  let (socket, otherSocket) := other.socket.moveConstruct
  (⟨socket, other.running, other.port⟩, ⟨otherSocket, false, 0⟩)

/-- `Server::operator=(Server&& other)` for `this != &other`. -/
def moveAssign (self other : Server) : SysM (Server × Server) := do
  let self ← self.stop
  let (socket, otherSocket) ← self.socket.moveAssign other.socket
  pure (⟨socket, other.running, other.port⟩, ⟨otherSocket, false, 0⟩)

/-- `Server::accept`. -/
def accept (self : Server) (connection : Connection) : SysM (Error × Connection) :=
  if !self.running then pure (⟨.ConnectionFailed, "Server is not running"⟩, connection)
  else connection.accept self.socket

end Server

end PacketForge
