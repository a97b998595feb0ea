import OxideAuth.Template
import OxideAuth.Client.Model
import OxideAuth.Client.Steps
import OxideAuth.Client.Csrf
import OxideAuth.Client.Tokens
import OxideAuth.Client.Poison
import OxideAuth.Client.Progress
import OxideAuth.Client.Serial
import OxideAuth.Client.Trace
import OxideAuth.Client.Pages
import OxideAuth.Consent.Urlencoded
import OxideAuth.Consent.Solicitor
import OxideAuth.Client.Callback
