namespace SearchRelay

structure ServerSettings where
  host : String := "0.0.0.0"
  port : Nat := 5000
  websocketPath : String := "/websocket"
  broadcastCapacity : Nat := 256
  deriving DecidableEq, Repr

structure SearchSettings where
  root : String := "/usr/app/tosearch"
  /-- Seconds between rescans; none are made at zero. -/
  rescanInterval : Nat := 60
  pathMasks : List String := []
  deriving DecidableEq, Repr

structure MockSettings where
  /-- Milliseconds between two steps of the feigned scan. -/
  progressInterval : Nat := 1000
  totalFiles : Nat := 500
  deriving DecidableEq, Repr

structure ShutdownSettings where
  /-- Milliseconds that a controller has to end by itself. -/
  drainTimeout : Nat := 5000
  deriving DecidableEq, Repr

structure LoggingSettings where
  level : String := "info"
  deriving DecidableEq, Repr

structure Config where
  server : ServerSettings := {}
  search : SearchSettings := {}
  mock : MockSettings := {}
  shutdown : ShutdownSettings := {}
  logging : LoggingSettings := {}
  deriving DecidableEq, Repr

end SearchRelay
