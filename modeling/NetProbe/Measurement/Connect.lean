import NetProbe.Measurement.Basic
set_option autoImplicit false

/-! # Connecting

Connecting to an endpoint over TCP is a transaction of its own. The stream goes into a slot, which
the session closes at its end. -/

namespace NetProbe

namespace TcpConnect

def record (trace : TraceId) (address : SocketAddress) (result : Except String Unit) :
    ConnectRecord where
  address := address.ip
  port := address.port
  failure := failureOf result
  trace := trace

/-- Connects to an endpoint. -/
def call (s : Scope) (e : Endpoint) : Script (Outcome Connection) := do
  let trace ← Script.newTrace
  let message := "TCPConnect " ++ e.address.text
  Script.log (.started trace message)
  let child ← Script.limit s.context s.config.timeouts.tcpConnect
  let result := unlessInterrupted unlessBroken (← Script.attempt child (.connect e.address))
  Script.save { connects := [record trace e.address result] }
  Script.log (.stopped trace message (failureOf result))
  match result with
  | .error failure => return .failed failure
  | .ok () =>
    let slot ← Script.hold (← Script.establish .tcp)
    return .output {
      transport := .tcp, address := e.address, domain := e.domain, protocol := "", trace, slot }

end TcpConnect

end NetProbe
