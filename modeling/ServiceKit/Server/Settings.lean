import ServiceKit.Config.Setting
import ServiceKit.Net.Address

namespace ServiceKit.Server

structure TlsFiles where
  cert : String
  key : String
deriving DecidableEq, Repr

structure ListenerSettings where
  host : Net.Host
  port : Nat
  readTimeout : Nat
  writeTimeout : Nat
  maxHeaderBytes : Nat
  maxBodyBytes : Nat
  shutdownTimeout : Nat
  tls : Option TlsFiles
  notifyStatus : Bool
deriving DecidableEq, Repr

namespace ListenerSettings

def anyHost : Net.Host := .v4 ⟨[0,0,0,0]⟩

def default : ListenerSettings :=
  ⟨anyHost,8080,10000,10000,1048576,33554432,10000,none,false⟩

def address (s : ListenerSettings) : Net.Address := ⟨s.host,0,s.port⟩

-- Seconds of a configuration become milliseconds; files count only as a pair.
def ofConfig (c : Config) : ListenerSettings :=
  { default with
    port := c .port
    readTimeout := c .readTimeout * 1000
    writeTimeout := c .writeTimeout * 1000
    maxHeaderBytes := c .maxHeaderBytes
    maxBodyBytes := c .maxBodyBytes
    notifyStatus := c .notifyStatus
    tls := do return ⟨← (c .certFile : Option String),← (c .keyFile : Option String)⟩ }

def toJson (s : ListenerSettings) : Json :=
  .object
    [("socket_addr",.string s.address.text),("read_timeout_ms",.string (toString s.readTimeout)),
     ("write_timeout_ms",.string (toString s.writeTimeout)),
     ("shutdown_timeout_ms",.string (toString s.shutdownTimeout)),("max_header_bytes",.nat s.maxHeaderBytes),
     ("max_body_bytes",.nat s.maxBodyBytes),
     ("tls",.ofOption (s.tls.map fun t => .array [.string t.cert,.string t.key])),
     ("notify_service_status",.bool s.notifyStatus)]

end ListenerSettings
end ServiceKit.Server
