import Pseudonym.Main
import Pseudonym.Proofs.Anonymity
import Pseudonym.Proofs.Batch.Capture
import Pseudonym.Proofs.Batch.Contents
import Pseudonym.Proofs.Batch.Folders
import Pseudonym.Proofs.Batch.Originals
import Pseudonym.Proofs.CommandLine.ExitStatus
import Pseudonym.Proofs.Files.Disks
import Pseudonym.Proofs.Files.Locations
import Pseudonym.Proofs.Files.Selection
import Pseudonym.Proofs.Hints
import Pseudonym.Proofs.History
import Pseudonym.Proofs.Interleaving
import Pseudonym.Proofs.Leniency
import Pseudonym.Proofs.Reacceptance
import Pseudonym.Proofs.Renaming
import Pseudonym.Proofs.Requests
import Pseudonym.Proofs.Restoration
import Pseudonym.Proofs.SafeNames
import Pseudonym.Proofs.Session
import Pseudonym.Proofs.Settings.Layers
import Pseudonym.Proofs.Substitution
import Pseudonym.Proofs.Tree.Declarations
import Pseudonym.Proofs.Tree.DocumentOrder
import Pseudonym.Proofs.Tree.FirstFault
import Pseudonym.Proofs.Tree.Jumps
import Pseudonym.Proofs.Tree.Labels
import Pseudonym.Proofs.Tree.Rewriting
import Pseudonym.CommandLine.LogFormat
import Pseudonym.Names.Lottery
import Pseudonym.Text.Encoding
import Pseudonym.Yaml.Cursor
import Pseudonym.Yaml.Document
