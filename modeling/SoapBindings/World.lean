import SoapBindings.Run
-- A world of nothing but files and a log, in which runs can be followed from beginning to end. The
-- files may be kept in any way that lets paths be read and written.

namespace SoapBindings

class FileSystem (φ : Type) where
  read  : φ → String → Except DiskError String
  write : φ → String → String → Except DiskError φ

instance : FileSystem FileStore where
  read  := FileStore.read
  write := FileStore.write

structure World (φ : Type := FileStore) where
  store : φ
  log   : List LogRecord := []

namespace World

variable {φ : Type}

instance [FileSystem φ] : MonadDisk (StateM (World φ)) where
  readText path := return FileSystem.read (← get).store path
  writeText path text := do
    match FileSystem.write (← get).store path text with
    | .error e  => return .error e
    | .ok store =>
      modify fun w => { w with store }
      return .ok ()

instance : MonadJournal (StateM (World φ)) where
  log r := modify fun w => { w with log := w.log ++ [r] }

end World
end SoapBindings
