/-! # Node — The system timer -/

namespace PirMesh

/-- `clock_time_exceed`: `clock_time()` is in ticks of 16 MHz. -/
def clockTickExceed (now ref us : BitVec 32) : Bool := us * 16 < now - ref

/-- `clock_time_exceed_ms` -/
def clockTimeExceedMs (now ref span : BitVec 32) : Bool := span < now - ref

def clockTimeExceed100ms (now ref span : BitVec 32) : Bool := span < now - ref

end PirMesh
