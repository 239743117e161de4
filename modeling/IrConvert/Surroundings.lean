import IrConvert.Event
import IrConvert.Storage.Store
import IrConvert.Text.Utf8

namespace IrConvert

/-- All that a tool asks of what is around it. -/
class Surroundings (m : Type → Type) where
  readStandard : m (Except Storage.Fault ByteArray)
  readFile : Text → m (Except Storage.Fault ByteArray)
  writeStandard : Text → m (Except Storage.Fault Unit)
  writeFile : Text → Text → m (Except Storage.Fault Unit)
  writeError : Text → m Unit
  showFrom : Level → m Unit
  emit : Event → m Unit

/-- What there is to read and what has been written. Standard output takes a text as a whole, or
has a fault and takes nothing. Every event is in the log; those of a level that is shown are also
among the errors. -/
structure Setting (σ : Type) where
  standardInput : Except Storage.Fault ByteArray
  outputFault? : Option Storage.Fault
  store : σ
  standardOutput : Text
  errors : Text
  log : List Event
  shownFrom : Level

namespace Setting

variable {σ : Type}

def fresh (standardInput : Except Storage.Fault ByteArray) (outputFault? : Option Storage.Fault)
    (store : σ) : Setting σ :=
  { standardInput, outputFault?, store
    standardOutput := [], errors := [], log := [], shownFrom := .info }

def initial (standardInput : ByteArray) (store : σ) : Setting σ :=
  fresh (.ok standardInput) none store

def emit (setting : Setting σ) (event : Event) : Setting σ :=
  { setting with
    log := setting.log ++ [event]
    errors :=
      if event.level.shownAt setting.shownFrom then setting.errors ++ event.render
      else setting.errors }

def writeStandard (setting : Setting σ) (text : Text) : Except Storage.Fault Unit × Setting σ :=
  match setting.outputFault? with
  | some fault => (.error fault, setting)
  | none => (.ok (), { setting with standardOutput := setting.standardOutput ++ text })

def writeFile [Storage.Store σ] (setting : Setting σ) (path text : Text) :
    Except Storage.Fault Unit × Setting σ :=
  match Storage.Store.write setting.store path text.encode with
  | .ok store => (.ok (), { setting with store })
  | .error fault => (.error fault, setting)

instance [Storage.Store σ] : Surroundings (StateM (Setting σ)) where
  readStandard := return (← get).standardInput
  readFile path := return Storage.Store.read (← get).store path
  writeStandard text := fun setting => setting.writeStandard text
  writeFile path text := fun setting => setting.writeFile path text
  writeError text := modify fun setting => { setting with errors := setting.errors ++ text }
  showFrom level := modify fun setting => { setting with shownFrom := level }
  emit event := modify (·.emit event)

end Setting

end IrConvert
