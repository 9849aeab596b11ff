import ExecImage.Demangle
import ExecImage.File
import ExecImage.Json.Options
import ExecImage.Proofs.AddressWidth
import ExecImage.Proofs.Appended
import ExecImage.Proofs.Confinement
import ExecImage.Proofs.Elf.ReadSet
import ExecImage.Proofs.Elf.RoundTrip
import ExecImage.Proofs.Elf.SectionHeaders
import ExecImage.Proofs.Elf.SymbolEntries
import ExecImage.Proofs.FirstFault
import ExecImage.Proofs.Json.Options
import ExecImage.Proofs.Limits
import ExecImage.Proofs.Log
import ExecImage.Proofs.Pe.Addresses
import ExecImage.Proofs.Pe.Functions
import ExecImage.Proofs.Pe.SectionNames
import ExecImage.Proofs.Pe.Translation
import ExecImage.Proofs.Queries
import ExecImage.Proofs.Recognition
import ExecImage.Proofs.SectionLoads
import ExecImage.Proofs.SymbolOrder
import ExecImage.Proofs.TableFailure
import ExecImage.Proofs.TableLimits
import ExecImage.Proofs.Truncated
import ExecImage.Proofs.Pe.Headers
import ExecImage.Proofs.Pe.NamedExports
import ExecImage.Proofs.Pe.SymbolRecords
import ExecImage.Proofs.Pe.Written
import ExecImage.Proofs.Pe.WrittenExports
import ExecImage.Proofs.Pe.WrittenSymbols
import ExecImage.Proofs.Pe.RoundTrip
import ExecImage.Proofs.Labels
import ExecImage.Proofs.LoadWords
import ExecImage.Proofs.Reads
import ExecImage.Proofs.Texts
