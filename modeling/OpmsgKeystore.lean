import OpmsgKeystore.Basic
import OpmsgKeystore.FileSystem
import OpmsgKeystore.Normalize
import OpmsgKeystore.Provider
import OpmsgKeystore.Persona
import OpmsgKeystore.PersonaOps
import OpmsgKeystore.Keystore
import OpmsgKeystore.TestDouble
import OpmsgKeystore.Cleanup
import OpmsgKeystore.LoadMap
import OpmsgKeystore.PersonaRuns
import OpmsgKeystore.KexId
import OpmsgKeystore.Publish
import OpmsgKeystore.Tree
import OpmsgKeystore.Added
import OpmsgKeystore.RoundTrip
import OpmsgKeystore.Addressing
import OpmsgKeystore.Mirror
import OpmsgKeystore.KeyBlob
import OpmsgKeystore.Lookup
import OpmsgKeystore.LoadDh
import OpmsgKeystore.Shred
import OpmsgKeystore.KexImport
import OpmsgKeystore.MirrorRuns
import OpmsgKeystore.Race
import OpmsgKeystore.RaceRuns
import OpmsgKeystore.KexRace
import OpmsgKeystore.Independent
import OpmsgKeystore.Isolation
import OpmsgKeystore.Forget
import OpmsgKeystore.LoadAgree
