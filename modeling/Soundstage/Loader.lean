import Soundstage.DecodeMode
import Soundstage.Disk
import Soundstage.Error
import Soundstage.Journal

/-!
# Loaders

A loader decodes files into sounds and owns them until they are released.
-/

namespace Soundstage

class Loader (L : Type) where
  /-- Decode a file; a failure may leave a trace in the loader. -/
  decode : Disk → Path → DecodeMode → L → Except AudioError SoundId × L
  /-- Give a sound up. A failure changes nothing. -/
  release : SoundId → L → Except AudioError L
  /-- What is logged before a file is decoded. -/
  decodeLines : Path → DecodeMode → List Line

end Soundstage
