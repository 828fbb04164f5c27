import VerkleTrie.Bytes
import VerkleTrie.Trie
import VerkleTrie.Memory.Types
import VerkleTrie.Memory.Archive
import VerkleTrie.Memory.State
import VerkleTrie.Memory.Snapshot
import VerkleTrie.Memory.Apply
import VerkleTrie.Memory.Witness
import VerkleTrie.Memory.Verifier
import VerkleTrie.Proofs.Deserialize
import VerkleTrie.Proofs.Archive
import VerkleTrie.Proofs.Apply
import VerkleTrie.Proofs.Code
import VerkleTrie.Proofs.Witness
import VerkleTrie.Proofs.Elements
import VerkleTrie.Proofs.Snapshot
import VerkleTrie.Proofs.ArchiveState
import VerkleTrie.Proofs.Verifier
import VerkleTrie.Proofs.Run
import VerkleTrie.Proofs.Storage
import VerkleTrie.Proofs.Accounts
import VerkleTrie.Geth.State
import VerkleTrie.Proofs.Geth
