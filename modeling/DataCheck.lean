import DataCheck.Lib.Rely
import DataCheck.Datasets.MethodContracts
import DataCheck.Analysis.Guarantees
import DataCheck.Analysis.Samples
import DataCheck.Analysis.ReadBack
import DataCheck.Analysis.OrderIndependence
import DataCheck.Analysis.StoredContent
import DataCheck.Api.Origins
import DataCheck.Api.Middleware
import DataCheck.Validation.Grammars
import DataCheck.Datasets.Columns
import DataCheck.Datasets.UploadTimes
import DataCheck.Identity.Guarantees
import DataCheck.Identity.Logins
import DataCheck.Shared.Noninterference
import DataCheck.Shared.Transactions
import DataCheck.Shared.Locks
import DataCheck.Shared.Constraints
import DataCheck.Shared.Paging
import DataCheck.Api.Ownership
import DataCheck.Api.Progress
